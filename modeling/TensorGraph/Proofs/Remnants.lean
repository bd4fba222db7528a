import Mathlib
import TensorGraph.Proofs.Construction
import TensorGraph.Proofs.Rewiring

/-!
# Releasing sooner or later

What a release takes away, a later release would take away as well, unless it comes to be held in
between.  An edit of edges between nodes that handles hold lets nothing be held that was not, so
that nothing is lost if a release comes in front of it.  For sessions, where every command ends
in a release, this means that rewiring the inputs of a node one by one comes to the same as
rewiring all of them at once.
-/

namespace TensorGraph

/-- A change of consumers that commutes with dropping some of them commutes with pruning. -/
theorem Node.prune_reconsume_comm {stays : NodeId → Bool}
    {change : List InputPort → List InputPort}
    (commutes : ∀ consumers, (change consumers).filter (stays ·.node) =
      change (consumers.filter (stays ·.node))) (node : Node) (index : Nat) :
    (node.reconsume index change).prune stays = (node.prune stays).reconsume index change := by
  have outputs : ((node.reconsume index change).prune stays).outputs =
      ((node.prune stays).reconsume index change).outputs := by
    apply List.ext_getElem?
    intro place
    simp only [prune, reconsume, List.getElem?_map, List.getElem?_modify]
    split <;> simp [Function.comp_def, commutes]
  rw [prune, reconsume, Node.mk.injEq]
  exact ⟨rfl, rfl, rfl, outputs, rfl, rfl, rfl⟩

namespace Network

section Supports

variable {network : Network} {held : List NodeId} {id : NodeId}

theorem supported_of_held (isHeld : id ∈ held) (alive : network.Alive id) :
    network.Supported held id := by
  refine ⟨(· = id), rfl, fun member same => ?_⟩
  subst same
  exact ⟨alive, Or.inl (Or.inl isHeld)⟩

theorem Supported.dependency {other : NodeId} (supported : network.Supported held id)
    (depends : network.DependsOn id other) (alive : network.Alive other) :
    network.Supported held other := by
  rw [← mem_survivors_iff] at supported ⊢
  exact mem_survivors_of_dependency supported depends alive

theorem Stales.map_held {nodes : List NodeId} {before after : Network}
    (stales : Stales nodes before after) (number : GraphId) :
    (after.graph? number).map Graph.held = (before.graph? number).map Graph.held := by
  rw [stales.graph?, Option.map_map]
  congr 1
  funext graph
  rw [Function.comp_apply]
  split <;> rfl

/-- Reading an output of a node that handles hold supports nothing that was not supported. -/
theorem Supported.of_rewire {input : InputPort} {former source : OutputPort}
    (reads : network.source? input = some former) (isHeld : source.node ∈ held)
    (supported : (network.rewire input former source).Supported held id) :
    network.Supported held id := by
  obtain ⟨group, inGroup, members⟩ := supported
  have control : Agree Node.controlDependencies network (network.rewire input former source) :=
    agree_rewire (fun _ _ _ => rfl) (fun _ _ => rfl) network input former source
  refine ⟨group, inGroup, fun member inGroup => ?_⟩
  obtain ⟨alive, reason⟩ := members member inGroup
  refine ⟨(control.alive_iff member).mp alive, ?_⟩
  rcases reason with anchored | ⟨holder, holderInGroup, depends⟩
  · exact Or.inl ((anchors_congr (network.stales_rewire input former source).map_held).mp anchored)
  rcases dependsOn_iff.mp depends with ⟨index, port, found, rfl⟩ | controls
  · rw [source?_rewire network reads] at found
    split at found
    · obtain rfl := Option.some.inj found
      exact Or.inl (Or.inl isHeld)
    · exact Or.inr ⟨holder, holderInGroup, dependsOn_iff.mpr (Or.inl ⟨index, port, found, rfl⟩)⟩
  · have same := control.elim_eq holder []
    rw [controlDependencies, same] at controls
    exact Or.inr ⟨holder, holderInGroup, dependsOn_iff.mpr (Or.inr controls)⟩

end Supports

/-- The nodes that are kept, without their back references to the others. -/
def Pruned (kept : NodeId → Bool) (whole part : Network) : Prop :=
  ∀ id, part.node? id = if kept id then (whole.node? id).map (Node.prune kept) else none

namespace Pruned

variable {kept : NodeId → Bool} {whole part : Network}

theorem modifyNode (pruned : Pruned kept whole part) (target : NodeId) {change : Node → Node}
    (commutes : ∀ node, (change node).prune kept = change (node.prune kept)) :
    Pruned kept (whole.modifyNode target change) (part.modifyNode target change) := by
  intro id
  rw [node?_modifyNode, node?_modifyNode, pruned id]
  split
  · split
    · cases whole.node? id with
      | none => rfl
      | some node => simp [commutes]
    · rfl
  · rfl

/-- Rewiring an input of a node that is kept is a matter of what is kept. -/
theorem rewire (pruned : Pruned kept whole part) {input : InputPort} (keep : kept input.node)
    (former source : OutputPort) :
    Pruned kept (whole.rewire input former source) (part.rewire input former source) := by
  have renamed : Pruned kept
      (whole.modifyNode input.node fun node =>
        { node with sources := node.sources.set input.index source })
      (part.modifyNode input.node fun node =>
        { node with sources := node.sources.set input.index source }) :=
    pruned.modifyNode input.node fun _ => rfl
  have removed (consumers : List InputPort) :
      (consumers.filter (· ≠ input)).filter (kept ·.node) =
        (consumers.filter (kept ·.node)).filter (· ≠ input) := by
    rw [List.filter_filter, List.filter_filter]
    exact List.filter_congr fun _ _ => Bool.and_comm _ _
  have added (consumers : List InputPort) : (consumers ++ [input]).filter (kept ·.node) =
      consumers.filter (kept ·.node) ++ [input] := by
    simp [keep]
  have disconnected : Pruned kept (Network.disconnect _ former input)
      (Network.disconnect _ former input) :=
    renamed.modifyNode former.node fun node => node.prune_reconsume_comm removed former.index
  have connected : Pruned kept (Network.connect _ source input)
      (Network.connect _ source input) :=
    disconnected.modifyNode source.node fun node => node.prune_reconsume_comm added source.index
  intro id
  rw [Network.rewire, Network.rewire, node?_touch, node?_touch]
  exact connected id

end Pruned

/-- One network is what is left of another when only some nodes are kept, and all that a release
would keep are among them. -/
structure Remnant (held : List NodeId) (kept : NodeId → Bool) (whole part : Network) : Prop where
  nodes : Pruned kept whole part
  graphs : ∀ id, part.graphs.get? id = whole.graphs.get? id
  next : part.nextIds = whole.nextIds
  keeps : ∀ id, whole.Supported held id → kept id

theorem nextIds_release (network : Network) (held : List NodeId) :
    (network.release held).nextIds = network.nextIds := by
  rw [release]
  split
  · rfl
  · simp [restrict, nextIds, Store.nextId, Store.mapValues, Store.restrict]

/-- Nothing is lost where nothing was released. -/
theorem remnant_of_same {whole part : Network} (nodes : part.nodes = whole.nodes)
    (graphs : part.graphs = whole.graphs) (held : List NodeId) :
    Remnant held (fun _ => true) whole part where
  nodes id := by
    rw [if_pos rfl, node?, node?, nodes]
    cases whole.nodes.get? id with
    | none => rfl
    | some node => rw [Option.map_some, Node.prune_true]
  graphs id := by rw [graphs]
  next := by rw [nextIds, nextIds, nodes, graphs]
  keeps _ _ := rfl

namespace Remnant

variable {held : List NodeId} {kept : NodeId → Bool} {whole part : Network}
  (remnant : Remnant held kept whole part)

include remnant

theorem alive_iff {id : NodeId} : part.Alive id ↔ kept id ∧ whole.Alive id := by
  rw [Alive, remnant.nodes, Alive]
  split
  next keep => simp [keep]
  next drop => simp [drop]

/-- What does not refer back is seen as before at the nodes that are kept. -/
theorem elim_eq {β : Type} {view : Node → β}
    (keeps : ∀ (node : Node) stays, view (node.prune stays) = view node) (otherwise : β)
    {id : NodeId} (keep : kept id) :
    (part.node? id).elim otherwise view = (whole.node? id).elim otherwise view := by
  rw [remnant.nodes, if_pos keep, Option.elim_map]
  exact congrArg (Option.elim _ otherwise) (funext fun node => keeps node kept)

theorem source?_eq {input : InputPort} (keep : kept input.node) :
    part.source? input = whole.source? input := by
  have same : part.sources input.node = whole.sources input.node :=
    remnant.elim_eq (fun _ _ => rfl) [] keep
  rw [source?, same, source?]

theorem outputCount_eq {id : NodeId} (keep : kept id) :
    part.outputCount id = whole.outputCount id :=
  remnant.elim_eq (fun _ _ => List.length_map ..) 0 keep

theorem supported_iff {id : NodeId} : part.Supported held id ↔ whole.Supported held id := by
  have anchors (member : NodeId) : part.Anchors held member ↔ whole.Anchors held member :=
    anchors_congr fun number => by rw [graph?, remnant.graphs, graph?]
  have depends {holder member : NodeId} (keep : kept holder) :
      part.DependsOn holder member ↔ whole.DependsOn holder member := by
    rw [DependsOn, DependsOn, Network.dependencies, Network.dependencies,
      remnant.elim_eq (fun _ _ => rfl) [] keep]
  constructor
  · rintro ⟨group, inGroup, members⟩
    refine ⟨group, inGroup, fun member inGroup => ?_⟩
    obtain ⟨alive, reason⟩ := members member inGroup
    refine ⟨(remnant.alive_iff.mp alive).2, reason.imp (anchors member).mp ?_⟩
    rintro ⟨holder, holderInGroup, holds⟩
    have keep := (remnant.alive_iff.mp (members holder holderInGroup).1).1
    exact ⟨holder, holderInGroup, (depends keep).mp holds⟩
  · rintro ⟨group, inGroup, members⟩
    have keep (member : NodeId) (inGroup : group member) : kept member :=
      remnant.keeps member ⟨group, inGroup, members⟩
    refine ⟨group, inGroup, fun member inGroup => ?_⟩
    obtain ⟨alive, reason⟩ := members member inGroup
    refine ⟨remnant.alive_iff.mpr ⟨keep member inGroup, alive⟩, reason.imp (anchors member).mpr ?_⟩
    rintro ⟨holder, holderInGroup, holds⟩
    exact ⟨holder, holderInGroup, (depends (keep holder holderInGroup)).mpr holds⟩

/-- A release of what is left keeps what a release of the whole would keep. -/
theorem release : ∃ fewer, Remnant held fewer whole (part.release held) := by
  obtain ⟨stays, marked, nodes⟩ := part.node?_release held
  refine ⟨fun id => kept id && stays id, fun id => ?_, fun id => ?_, ?_, fun id supported => ?_⟩
  · rw [nodes, remnant.nodes]
    by_cases keep : kept id
    · cases found : whole.node? id with
      | none => simp
      | some node =>
          have alive : part.Alive id := remnant.alive_iff.mpr ⟨keep, node, found⟩
          by_cases stay : stays id
          · simp [keep, stay, (marked id alive).mp stay, Node.prune_prune]
          · simp [keep, stay, mt (marked id alive).mpr stay]
    · simp [keep]
  · rw [graphs_release, remnant.graphs]
  · rw [nextIds_release, remnant.next]
  · have inPart := remnant.supported_iff.mpr supported
    rw [Bool.and_eq_true]
    exact ⟨remnant.keeps id supported, (marked id inPart.alive).mpr (mem_survivors_iff.mpr inPart)⟩

/-- Rewiring an input between nodes that are kept, where handles hold the node that it comes to
read. -/
theorem rewire {input : InputPort} {former source : OutputPort}
    (reads : whole.source? input = some former) (isHeld : source.node ∈ held)
    (keep : ∀ node ∈ [input.node, former.node, source.node], kept node) :
    Remnant held kept (whole.rewire input former source) (part.rewire input former source) where
  nodes := remnant.nodes.rewire (keep _ (List.mem_cons_self ..)) former source
  graphs id := by
    rw [(part.stales_rewire input former source).graphs,
      (whole.stales_rewire input former source).graphs, remnant.graphs]
    congr 1
    funext record
    have known : (∃ node ∈ [input.node, former.node, source.node], id ∈ part.memberships node) ↔
        ∃ node ∈ [input.node, former.node, source.node], id ∈ whole.memberships node := by
      refine exists_congr fun node => and_congr_right fun concerned => ?_
      rw [Network.memberships, Network.memberships,
        remnant.elim_eq (fun _ _ => rfl) [] (keep node concerned)]
    simp only [known]
  next := by rw [nextIds_rewire, nextIds_rewire, remnant.next]
  keeps id supported := remnant.keeps id (supported.of_rewire reads isHeld)

/-- What is left after a last release is what a single release at the end leaves. -/
theorem eq_release (linked : whole.Linked) (mirrored : whole.Mirrored) (settled : part.Kept held) :
    part.nodes = (whole.release held).nodes ∧ part.graphs = (whole.release held).graphs := by
  have next : part.nextIds = (whole.release held).nextIds :=
    remnant.next.trans (nextIds_release whole held).symm
  have survives (id : NodeId) (alive : whole.Alive id) : kept id ↔ id ∈ whole.survivors held := by
    rw [mem_survivors_iff]
    refine ⟨fun keep => ?_, remnant.keeps id⟩
    rw [← remnant.supported_iff, ← mem_survivors_iff, settled, mem_ids]
    exact remnant.alive_iff.mpr ⟨keep, alive⟩
  obtain ⟨stays, marked, nodes⟩ := whole.node?_release held
  constructor
  · refine Store.eq_of_get?_eq (congrArg Prod.fst next) fun id => ?_
    refine (remnant.nodes id).trans (Eq.trans ?_ (nodes id).symm)
    cases found : whole.node? id with
    | none => simp
    | some node =>
        have pruned : node.prune kept = node.prune stays :=
          prune_eq_of_alive linked mirrored found fun other alive =>
            Bool.eq_iff_iff.mpr ((survives other alive).trans (marked other alive).symm)
        simp only [survives id ⟨node, found⟩, Option.map_some, pruned]
  · refine Store.eq_of_get?_eq (congrArg Prod.snd next) fun id => ?_
    rw [remnant.graphs, graphs_release]

end Remnant

theorem release_congr {network other : Network} (nodes : network.nodes = other.nodes)
    (graphs : network.graphs = other.graphs) (held : List NodeId) :
    (network.release held).nodes = (other.release held).nodes ∧
      (network.release held).graphs = (other.release held).graphs := by
  have survive : network.survivors held = other.survivors held := by
    rw [survivors, survivors, nodes, graphs]
    refine congrArg (Lifetime.settle _ · _ _) (funext fun id => ?_)
    rw [Network.dependencies, Network.dependencies, node?, node?, nodes]
  refine ⟨?_, by rw [graphs_release, graphs_release, graphs]⟩
  rw [release, release, survive, nodes]
  split
  · exact nodes
  · simp only [restrict, nodes]

end Network

namespace Session

open Network

variable {session : Session}

/-- A command that carries out an operation on the network and is done. -/
theorem step_of_edit {command : Command} {operation : Edit Unit} {after : Network}
    (performs : Action.perform command = do
      Action.edit operation
      return .done)
    (accepted : operation.on session.clearEvents.network = (.ok (), after)) :
    session.step command =
      (.ok .done, { session with network := after.release session.held }) := by
  rw [step, performs, Action.on_bind, Action.on_edit, accepted]
  rfl

/-- Rewiring inputs command by command leaves of the network what is left of it without the
releases in between. -/
theorem run_setSource {pairs : List (OutputPort × InputPort)} {kept : NodeId → Bool}
    {whole after : Network} (remnant : Remnant session.held kept whole session.network)
    (settled : session.network.Kept session.held) (rewirable : whole.Rewirable pairs)
    (isHeld : ∀ pair ∈ pairs, pair.2.node ∈ session.held ∧ pair.1.node ∈ session.held)
    (accepted : (pairs.forM fun pair => Edit.setSource pair.2 pair.1).on whole =
      (.ok (), after)) :
    ∃ network fewer,
      session.run (pairs.map fun pair => .setSource pair.2 pair.1) = { session with network } ∧
      Remnant session.held fewer after network ∧ network.Kept session.held := by
  induction pairs generalizing session kept whole with
  | nil =>
      obtain ⟨-, rfl⟩ := Prod.mk.inj accepted
      exact ⟨session.network, kept, rfl, remnant, settled⟩
  | cons pair pairs ih =>
      obtain ⟨former, reads⟩ := rewirable.reads pair (List.mem_cons_self ..)
      have valid := rewirable.valid pair (List.mem_cons_self ..)
      obtain ⟨⟨inputHeld, sourceHeld⟩, othersHeld⟩ := List.forall_mem_cons.mp isHeld
      obtain ⟨node, alive, -⟩ := alive_of_source? reads
      have supported := supported_of_held inputHeld ⟨node, alive⟩
      have keep : ∀ node ∈ [pair.2.node, former.node, pair.1.node], kept node := by
        have readsFormer : whole.DependsOn pair.2.node former.node :=
          dependsOn_iff.mpr (Or.inl ⟨pair.2.index, former, reads, rfl⟩)
        have formerAlive := alive_of_lt_outputCount (rewirable.linked.lt_outputCount reads)
        simp only [List.forall_mem_cons, List.not_mem_nil, false_imp_iff, implies_true, and_true]
        exact ⟨remnant.keeps _ supported,
          remnant.keeps _ (supported.dependency readsFormer formerAlive),
          remnant.keeps _ (supported_of_held sourceHeld (alive_of_lt_outputCount valid))⟩
      have cleared : Remnant session.held kept whole session.clearEvents.network :=
        ⟨remnant.nodes, remnant.graphs, remnant.next, remnant.keeps⟩
      have readsNow : session.clearEvents.network.source? pair.2 = some former := by
        rw [cleared.source?_eq (keep _ (by simp)), reads]
      have validNow : pair.1.index < session.clearEvents.network.outputCount pair.1.node := by
        rw [cleared.outputCount_eq (keep _ (by simp))]
        exact valid
      obtain ⟨fewer, left⟩ := (cleared.rewire reads sourceHeld keep).release
      change (Edit.setSource pair.2 pair.1 >>= fun _ =>
        pairs.forM fun pair => Edit.setSource pair.2 pair.1).on whole = _ at accepted
      rw [Edit.on_bind, Edit.on_setSource valid reads] at accepted
      change ∃ network fewer, (session.step (.setSource pair.2 pair.1)).2.run _ = _ ∧ _
      rw [step_of_edit rfl (Edit.on_setSource validNow readsNow)]
      exact ih left (kept_release _ _) (rewirable.rest reads) othersHeld accepted

/-- Where handles hold the node and all that it comes to read, rewiring its inputs command by
command leads to the session to which a single command leads. -/
theorem Reachable.run_setSource_eq (reachable : session.Reachable) {id : NodeId} {node : Node}
    (alive : session.network.node? id = some node) {sources : List OutputPort}
    (given : sources ≠ []) (lengths : sources.length = node.sources.length)
    (valid : ∀ source ∈ sources, source.index < session.network.outputCount source.node)
    (isHeld : id ∈ session.held) (areHeld : ∀ source ∈ sources, source.node ∈ session.held) :
    (session.run ((edges id sources).map fun edge => .setSource edge.2 edge.1)).clearEvents =
      (session.step (.setSources id sources)).2.clearEvents := by
  have intact : session.clearEvents.network.Intact :=
    reachable.intact.of_moves (.single .logged)
  have rewirable : session.clearEvents.network.Rewirable (edges id sources) :=
    rewirable_edges intact.linked alive lengths valid
  have held : ∀ edge ∈ edges id sources,
      edge.2.node ∈ session.held ∧ edge.1.node ∈ session.held := by
    rintro edge member
    obtain ⟨same, found⟩ := mem_edges.mp member
    exact ⟨same ▸ isHeld, areHeld edge.1 (List.mem_of_getElem? found)⟩
  obtain ⟨after, accepted, rewired⟩ := Edit.on_forM_setSource_of_rewirable rewirable
  have remnant : Remnant session.held (fun _ => true) session.clearEvents.network
      session.network := by
    apply remnant_of_same
    · rfl
    · rfl
  obtain ⟨network, fewer, ran, left, settled⟩ :=
    run_setSource remnant reachable.kept rewirable held accepted
  have moves := Edit.within_forM (fun edge (_ : edge ∈ edges id sources) =>
    Edit.follows_setSource edge.2 edge.1) session.clearEvents.network
  rw [accepted] at moves
  have intactAfter := intact.of_moves moves
  have bulk := rewired_rewireAll intact.linked alive given lengths valid
  obtain ⟨nodes, graphs⟩ := left.eq_release intactAfter.linked intactAfter.mirrored settled
  obtain ⟨sameNodes, sameGraphs⟩ := rewired.unique bulk
  obtain ⟨allNodes, allGraphs⟩ := release_congr sameNodes sameGraphs session.held
  rw [ran, step_of_edit rfl (Edit.on_setSources alive valid), clearEvents, clearEvents]
  simp only [nodes, graphs, allNodes, allGraphs]

/-- Rewiring the inputs of a node all at once and one after the other are both accepted and come to
the same nodes and graphs.  The node then reads the given outputs; each output has lost the inputs
of the node as consumers and has those that read it behind the others, in order; nothing else about
any node has changed; and exactly the graphs with the node, with a former or with a new source in
their schedules are stale.  The same holds of commands, which release in between what nothing
holds, if handles hold the node and all that it comes to read. -/
theorem Reachable.rewiring_in_turn (reachable : session.Reachable) {id : NodeId} {node : Node}
    (alive : session.network.node? id = some node) (nonempty : node.sources ≠ [])
    {sources : List OutputPort} (lengths : sources.length = node.sources.length)
    (valid : ∀ source ∈ sources, source.index < session.network.outputCount source.node) :
    (∃ bulk turn,
      (Edit.setSources id sources).on session.network = (.ok (), bulk) ∧
      ((edges id sources).forM fun edge => Edit.setSource edge.2 edge.1).on session.network =
        (.ok (), turn) ∧
      bulk.nodes = turn.nodes ∧ bulk.graphs = turn.graphs ∧
      (∀ other, bulk.sources other =
        if other = id then sources else session.network.sources other) ∧
      (∀ port, bulk.consumers port =
        (session.network.consumers port).filter (·.node ≠ id) ++ inputsFrom id sources port) ∧
      Agree Node.unwired session.network bulk ∧
      ∀ number, bulk.graph? number = (session.network.graph? number).map fun graph =>
        if ∃ member ∈ graph.schedule, member ∈ id :: (node.sources ++ sources).map (·.node) then
          { graph with isFresh := false }
        else graph) ∧
    (id ∈ session.held → (∀ source ∈ sources, source.node ∈ session.held) →
      (session.run ((edges id sources).map fun edge => .setSource edge.2 edge.1)).clearEvents =
        (session.step (.setSources id sources)).2.clearEvents) := by
  have given : sources ≠ [] := by
    rw [← List.length_pos_iff, lengths]
    exact List.length_pos_iff.mpr nonempty
  have linked := reachable.linked
  obtain ⟨turn, accepted, rewired⟩ :=
    Edit.on_forM_setSource_of_rewirable (rewirable_edges linked alive lengths valid)
  have bulk := rewired_rewireAll linked alive given lengths valid
  obtain ⟨nodes, graphs⟩ := bulk.unique rewired
  refine ⟨⟨_, turn, Edit.on_setSources alive valid, accepted, nodes, graphs,
    sources_rewireAll ⟨node, alive⟩ node.sources, consumers_rewireAll_of_linked linked alive valid,
    bulk.nodes, graph?_rewireAll reachable.coherent node.sources⟩, ?_⟩
  exact reachable.run_setSource_eq alive given lengths valid

/-- A concatenation that reads a parameter three times, a rectifier of it and itself, and a graph
that gives out the rectifier. -/
def woven : Session :=
  empty.run [
    .create (.parameter { elementType := .f32, shape := .fixed [2, 3] }) [] none (.text "feed"),
    .create .relu [⟨1, 0⟩] none (.text "gate"),
    .create (.concat 0) [⟨1, 0⟩, ⟨2, 0⟩, ⟨1, 0⟩, ⟨1, 0⟩, ⟨1, 0⟩] none (.text "joint"),
    .create .result [⟨2, 0⟩] none (.text "outcome"),
    .createGraph [4] [1] [] .absent (.text "graph"),
    .setSource ⟨3, 3⟩ ⟨3, 0⟩,
    .schedule "graph"]

theorem woven_reachable : woven.Reachable :=
  ⟨_, rfl⟩

theorem edges_woven :
    (woven.network.node? 3).map (·.sources) =
      some [⟨1, 0⟩, ⟨2, 0⟩, ⟨1, 0⟩, ⟨3, 0⟩, ⟨1, 0⟩] ∧
    woven.network.consumers ⟨2, 0⟩ = [⟨3, 1⟩, ⟨4, 0⟩] ∧
    woven.network.consumers ⟨3, 0⟩ = [⟨3, 3⟩] ∧
    [1, 2, 3].map woven.network.outputCount = [1, 1, 1] ∧
    [1, 2, 3].all (woven.held.contains ·) ∧
    (woven.network.graph? 1).map (fun graph => (graph.schedule, graph.isFresh)) =
      some ([1, 2, 4], true) := by
  cbv

/-- The inputs change places among outputs that were read and are read, the own one of the node
among them. -/
theorem rewired_woven :
    woven.Reachable ∧
    (∃ bulk turn,
      (Edit.setSources 3 [⟨2, 0⟩, ⟨1, 0⟩, ⟨3, 0⟩, ⟨2, 0⟩, ⟨3, 0⟩]).on woven.network =
        (.ok (), bulk) ∧
      ((edges 3 [⟨2, 0⟩, ⟨1, 0⟩, ⟨3, 0⟩, ⟨2, 0⟩, ⟨3, 0⟩]).forM fun edge =>
        Edit.setSource edge.2 edge.1).on woven.network = (.ok (), turn) ∧
      bulk.nodes = turn.nodes ∧ bulk.graphs = turn.graphs ∧
      bulk.consumers ⟨2, 0⟩ = [⟨4, 0⟩, ⟨3, 0⟩, ⟨3, 3⟩] ∧
      bulk.consumers ⟨3, 0⟩ = [⟨3, 2⟩, ⟨3, 4⟩] ∧
      (bulk.graph? 1).map (·.isFresh) = some false) ∧
    (woven.run [.setSource ⟨3, 0⟩ ⟨2, 0⟩, .setSource ⟨3, 1⟩ ⟨1, 0⟩, .setSource ⟨3, 2⟩ ⟨3, 0⟩,
        .setSource ⟨3, 3⟩ ⟨2, 0⟩, .setSource ⟨3, 4⟩ ⟨3, 0⟩]).clearEvents =
      (woven.step (.setSources 3 [⟨2, 0⟩, ⟨1, 0⟩, ⟨3, 0⟩, ⟨2, 0⟩, ⟨3, 0⟩])).2.clearEvents := by
  obtain ⟨reads, ofGate, ofJoint, counts, held, scheduled⟩ := edges_woven
  obtain ⟨node, alive, sources⟩ := Option.map_eq_some_iff.mp reads
  obtain ⟨graph, found, same⟩ := Option.map_eq_some_iff.mp scheduled
  obtain ⟨schedule, isFresh⟩ := Prod.mk.inj same
  simp only [List.map_cons, List.map_nil, List.cons.injEq, and_true] at counts
  simp only [List.all_cons, List.all_nil, Bool.and_true, Bool.and_eq_true,
    List.contains_iff_mem] at held
  obtain ⟨countFeed, countGate, countJoint⟩ := counts
  obtain ⟨feedHeld, gateHeld, jointHeld⟩ := held
  have valid : ∀ source ∈ [(⟨2, 0⟩ : OutputPort), ⟨1, 0⟩, ⟨3, 0⟩, ⟨2, 0⟩, ⟨3, 0⟩],
      source.index < woven.network.outputCount source.node := by
    simp [countFeed, countGate, countJoint]
  obtain ⟨⟨bulk, turn, atOnce, oneByOne, nodes, graphs, -, consumers, -, stale⟩, commands⟩ :=
    woven_reachable.rewiring_in_turn alive (by simp [sources]) (by simp [sources]) valid
  refine ⟨woven_reachable, ⟨bulk, turn, atOnce, oneByOne, nodes, graphs, ?_, ?_, ?_⟩, ?_⟩
  · rw [consumers, ofGate]
    rfl
  · rw [consumers, ofJoint]
    rfl
  · rw [stale, found]
    simp [schedule]
  · exact commands jointHeld (by simp [feedHeld, gateHeld, jointHeld])

end Session
end TensorGraph
