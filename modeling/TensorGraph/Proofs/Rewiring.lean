import Mathlib
import TensorGraph.Proofs.Transfer

/-!
# Rewiring in bulk and in turn

Rewiring some inputs changes what these read, at each output the places of those that cease or
come to read it, and which graphs are stale.  Taken together this says of every node and graph
what it is afterwards.  So it makes no difference whether the inputs of a node are rewired all at
once, when all of them are disconnected before the first is connected again, or one after the
other.
-/

namespace TensorGraph

theorem Store.eq_of_get?_eq {α : Type} {first second : Store α}
    (next : first.nextId = second.nextId) (same : ∀ id, first.get? id = second.get? id) :
    first = second := by
  obtain ⟨slots⟩ := first
  obtain ⟨others⟩ := second
  congr 1
  refine Array.ext next fun id below other => ?_
  have slot := same id
  rwa [get?, get?, Array.getElem?_eq_getElem below, Array.getElem?_eq_getElem other,
    Option.join_some, Option.join_some] at slot

/-- A node is known by its data edges at both ends and what is left without them. -/
theorem Node.eq_of_unwired_eq {first second : Node} (unwired : first.unwired = second.unwired)
    (sources : first.sources = second.sources)
    (readers : Network.readers first = Network.readers second) : first = second := by
  have outputs : first.outputs = second.outputs := by
    apply List.ext_getElem?
    intro index
    have bare := congrArg (·.outputs[index]?) unwired
    have consumed := congrArg (·[index]?) readers
    simp only [Node.unwired, Network.readers, List.getElem?_map] at bare consumed
    cases one : first.outputs[index]? with
    | none => simpa [one, eq_comm] using bare
    | some tensor =>
        cases two : second.outputs[index]? with
        | none => simp [one, two] at bare
        | some other =>
            obtain ⟨type, names, consumers⟩ := tensor
            obtain ⟨otherType, otherNames, otherConsumers⟩ := other
            simp_all
  cases first
  cases second
  simp_all [Node.unwired]

namespace Network

section Numbers

variable (network : Network)

/-- The next numbers of a node and of a graph. -/
def nextIds (network : Network) : Nat × Nat :=
  (network.nodes.nextId, network.graphs.nextId)

@[simp] theorem nextIds_modifyNode (id : NodeId) (change : Node → Node) :
    (network.modifyNode id change).nextIds = network.nextIds := by
  simp [nextIds, modifyNode, Store.nextId, Store.modify]

theorem nextIds_touchGraph (node : NodeId) (id : GraphId) :
    (touchGraph node network id).nextIds = network.nextIds := by
  rw [touchGraph]
  split
  · simp [nextIds, modifyInfo, report, Store.nextId, Store.modify]
  · rfl

@[simp] theorem nextIds_touch (nodes : List NodeId) :
    (network.touch nodes).nextIds = network.nextIds :=
  network.view_foldl nextIds _ (fun network node =>
    network.view_foldl nextIds _ (fun network id => network.nextIds_touchGraph node id) _) nodes

theorem nextIds_rewire (input : InputPort) (former source : OutputPort) :
    (network.rewire input former source).nextIds = network.nextIds := by
  simp [rewire, disconnect, connect, modifyTensor]

theorem nextIds_rewireAll (id : NodeId) (former sources : List OutputPort) :
    (network.rewireAll id former sources).nextIds = network.nextIds := by
  have same (network : Network) : ∀ id change, (network.modifyNode id change).nextIds = _ :=
    network.nextIds_modifyNode
  rw [rewireAll, nextIds_touch, view_connectAll _ nextIds same, view_disconnectAll _ nextIds same,
    nextIds_modifyNode]

end Numbers

section Effects

variable {before between after other : Network} {pairs : List (OutputPort × InputPort)}

/-- The nodes at the ends of the edges that change when inputs are rewired to the outputs that
they are paired with. -/
def rewiredNodes (network : Network) (pairs : List (OutputPort × InputPort)) : List NodeId :=
  pairs.flatMap fun (source, input) =>
    input.node :: source.node :: (network.source? input).toList.map (·.node)

theorem mem_rewiredNodes {network : Network} {pairs : List (OutputPort × InputPort)}
    {node : NodeId} :
    node ∈ network.rewiredNodes pairs ↔ ∃ pair ∈ pairs, node = pair.2.node ∨
      node = pair.1.node ∨ ∃ former, network.source? pair.2 = some former ∧ node = former.node := by
  simp only [rewiredNodes, List.mem_flatMap, List.mem_cons, List.mem_map, Option.mem_toList,
    eq_comm]

/-- Inputs have come to read the outputs that they are paired with.  At every output they are
behind the other consumers in the order of the pairs; nothing but data edges has changed about
nodes, and exactly the graphs that know a node at an end of a changed edge are stale. -/
structure Rewired (pairs : List (OutputPort × InputPort)) (before after : Network) : Prop where
  reads : ∀ source input, (source, input) ∈ pairs → after.source? input = some source
  keeps : ∀ input, input ∉ pairs.map Prod.snd → after.source? input = before.source? input
  consumers : ∀ port, after.consumers port =
    (before.consumers port).filter (· ∉ pairs.map Prod.snd) ++ pairedWith port pairs
  nodes : Agree Node.unwired before after
  graphs : Stales (before.rewiredNodes pairs) before after
  next : after.nextIds = before.nextIds

theorem sources_eq_of_source?_eq {id : NodeId}
    (same : ∀ index, after.source? ⟨id, index⟩ = before.source? ⟨id, index⟩) :
    after.sources id = before.sources id :=
  List.ext_getElem? same

/-- Networks have the same nodes if these have the same data edges and agree on all else. -/
theorem node?_eq_of_unwired (nodes : Agree Node.unwired before after)
    (sources : ∀ input, after.source? input = before.source? input)
    (consumers : ∀ port, after.consumers port = before.consumers port) (id : NodeId) :
    after.node? id = before.node? id := by
  rcases map_eq_map_cases (nodes id) with ⟨later, former⟩ | ⟨node, former, later, known, same⟩
  · rw [later, former]
  · have lengths : node.outputs.length = former.outputs.length := by
      simpa [Node.unwired] using congrArg (·.outputs.length) same
    rw [later, known, Node.eq_of_unwired_eq same]
    · have listed : after.sources id = before.sources id :=
        sources_eq_of_source?_eq fun index => sources ⟨id, index⟩
      rwa [Network.sources, later, Network.sources, known] at listed
    · refine List.ext_getElem (by simpa [readers] using lengths) fun index below _ => ?_
      have listed := consumers ⟨id, index⟩
      rw [consumers_eq_readers, consumers_eq_readers] at listed
      simp_all [List.getD_eq_getElem?_getD]

namespace Rewired

/-- The effect of rewiring inputs determines every node and every graph. -/
theorem unique (first : Rewired pairs before after) (second : Rewired pairs before other) :
    after.nodes = other.nodes ∧ after.graphs = other.graphs := by
  have next : after.nextIds = other.nextIds := first.next.trans second.next.symm
  have sources (input : InputPort) : after.source? input = other.source? input := by
    by_cases paired : input ∈ pairs.map Prod.snd
    · obtain ⟨⟨source, _⟩, member, rfl⟩ := List.mem_map.mp paired
      rw [first.reads source _ member, second.reads source _ member]
    · rw [first.keeps input paired, second.keeps input paired]
  have consumers (port : OutputPort) : after.consumers port = other.consumers port := by
    rw [first.consumers, second.consumers]
  constructor
  · refine Store.eq_of_get?_eq (congrArg Prod.fst next) fun id => ?_
    exact node?_eq_of_unwired (second.nodes.symm.trans first.nodes) sources consumers id
  · refine Store.eq_of_get?_eq (congrArg Prod.snd next) fun id => ?_
    exact (first.graphs.graphs id).trans (second.graphs.graphs id).symm

theorem refl (network : Network) : Rewired [] network network where
  reads source input member := absurd member List.not_mem_nil
  keeps _ _ := rfl
  consumers port := by simp [pairedWith]
  nodes := .refl _ network
  graphs := .refl network
  next := rfl

/-- A further input is rewired in front of the others. -/
theorem cons {pair : OutputPort × InputPort} (first : Rewired [pair] before between)
    (rest : Rewired pairs between after) (apart : pair.2 ∉ pairs.map Prod.snd) :
    Rewired (pair :: pairs) before after where
  reads source input member := by
    rcases List.mem_cons.mp member with rfl | later
    · rw [rest.keeps _ apart]
      exact first.reads source input (List.mem_singleton.mpr rfl)
    · exact rest.reads source input later
  keeps input unpaired := by
    rw [List.map_cons, List.mem_cons, not_or] at unpaired
    rw [rest.keeps input unpaired.2, first.keeps input (by simpa using unpaired.1)]
  consumers port := by
    have behind : (pairedWith port [pair]).filter (· ∉ pairs.map Prod.snd) =
        pairedWith port [pair] := by
      rw [pairedWith_cons]
      split <;> simp [pairedWith, apart]
    rw [rest.consumers, first.consumers, List.filter_append, behind, List.append_assoc,
      List.filter_filter]
    congr 1
    · refine List.filter_congr fun input _ => ?_
      rw [← Bool.decide_and, decide_eq_decide, List.map_singleton, List.mem_singleton,
        List.map_cons, List.mem_cons, not_or, and_comm]
    · rw [pairedWith_cons, pairedWith_cons]
      simp [pairedWith]
  nodes := first.nodes.trans rest.nodes
  graphs := by
    have formers : between.rewiredNodes pairs = before.rewiredNodes pairs := by
      apply List.flatMap_congr
      rintro ⟨source, input⟩ member
      have unpaired : input ∉ [pair].map Prod.snd := by
        rw [List.map_singleton, List.mem_singleton]
        exact ne_of_mem_of_not_mem (List.mem_map_of_mem member) apart
      dsimp only
      rw [first.keeps input unpaired]
    have combined := first.graphs.trans rest.graphs
    rw [formers] at combined
    refine combined.congr fun node => ?_
    simp [rewiredNodes]
  next := rest.next.trans first.next

end Rewired

/-- Rewiring an input moves it from the output that it read to the end of the list of the
other. -/
theorem rewired_rewire (linked : before.Linked) {input : InputPort} {former source : OutputPort}
    (valid : source.index < before.outputCount source.node)
    (reads : before.source? input = some former) :
    Rewired [(source, input)] before (before.rewire input former source) where
  reads port other member := by
    obtain ⟨rfl, rfl⟩ := Prod.mk.inj (List.mem_singleton.mp member)
    rw [source?_rewire before reads, if_pos rfl]
  keeps other apart := by
    rw [source?_rewire before reads, if_neg (by simpa using apart)]
  consumers port := by
    have taken : (if former = port then (before.consumers port).filter (· ≠ input)
        else before.consumers port) = (before.consumers port).filter (· ∉ [input]) := by
      split
      · simp
      next apart =>
        refine (List.filter_eq_self.mpr fun other member => ?_).symm
        rw [decide_eq_true_iff, List.mem_singleton]
        rintro rfl
        exact apart (Option.some.inj (reads.symm.trans (linked.source?_iff.mpr member)))
    rw [consumers_rewire input former valid, taken, pairedWith_cons]
    simp [pairedWith]
  nodes := agree_rewire Node.unwired_reconsume (fun _ _ => rfl) before input former source
  graphs := by
    refine (before.stales_rewire input former source).congr fun node => ?_
    simp [rewiredNodes, reads]
    tauto
  next := before.nextIds_rewire input former source

/-- Different inputs can be rewired to the outputs that they are paired with: each of them reads
something, and the outputs exist. -/
structure Rewirable (network : Network) (pairs : List (OutputPort × InputPort)) : Prop where
  linked : network.Linked
  valid : ∀ pair ∈ pairs, pair.1.index < network.outputCount pair.1.node
  reads : ∀ pair ∈ pairs, ∃ former, network.source? pair.2 = some former
  nodup : (pairs.map Prod.snd).Nodup

theorem Rewirable.apart {pair : OutputPort × InputPort}
    (rewirable : before.Rewirable (pair :: pairs)) : pair.2 ∉ pairs.map Prod.snd :=
  (List.nodup_cons.mp rewirable.nodup).1

/-- Rewiring the first input leaves the others to be rewired. -/
theorem Rewirable.rest {pair : OutputPort × InputPort} {former : OutputPort}
    (rewirable : before.Rewirable (pair :: pairs)) (reads : before.source? pair.2 = some former) :
    (before.rewire pair.2 former pair.1).Rewirable pairs where
  linked := rewirable.linked.of_rewire (rewirable.valid pair (List.mem_cons_self ..)) reads
  valid other member := by
    rw [outputCount_rewire]
    exact rewirable.valid other (List.mem_cons_of_mem _ member)
  reads other member := by
    have apart : other.2 ≠ pair.2 :=
      ne_of_mem_of_not_mem (List.mem_map_of_mem member) rewirable.apart
    rw [source?_rewire before reads, if_neg apart]
    exact rewirable.reads other (List.mem_cons_of_mem _ member)
  nodup := (List.nodup_cons.mp rewirable.nodup).2

end Effects

section Places

variable (id : NodeId) (sources : List OutputPort)

theorem map_snd_edges :
    (edges id sources).map Prod.snd = (List.range sources.length).map (⟨id, ·⟩) := by
  apply List.ext_getElem
  · simp [edges]
  · simp [edges]

theorem mem_map_snd_edges {id : NodeId} {sources : List OutputPort} {input : InputPort} :
    input ∈ (edges id sources).map Prod.snd ↔
      input.node = id ∧ input.index < sources.length := by
  rw [map_snd_edges]
  constructor
  · intro member
    obtain ⟨index, below, rfl⟩ := List.mem_map.mp member
    exact ⟨rfl, List.mem_range.mp below⟩
  · rintro ⟨rfl, below⟩
    exact List.mem_map.mpr ⟨input.index, List.mem_range.mpr below, rfl⟩

theorem nodup_map_snd_edges : ((edges id sources).map Prod.snd).Nodup := by
  rw [map_snd_edges]
  exact List.nodup_range.map fun _ _ same => congrArg InputPort.index same

end Places

section Bulk

variable {network : Network} {id : NodeId} {node : Node} {sources : List OutputPort}

theorem source?_of_node? (alive : network.node? id = some node) (index : Nat) :
    network.source? ⟨id, index⟩ = node.sources[index]? := by
  rw [source?, Network.sources, alive, Option.elim_some]

theorem sources_rewireAll (alive : network.Alive id) (former : List OutputPort) (other : NodeId) :
    (network.rewireAll id former sources).sources other =
      if other = id then sources else network.sources other := by
  apply List.ext_getElem?
  intro index
  have reads := source?_rewireAll alive former sources ⟨other, index⟩
  rw [source?] at reads
  rw [reads]
  split <;> rfl

/-- The consumers of an output that are inputs of the node are all rewired. -/
theorem consumers_rewireAll_of_linked (linked : network.Linked)
    (alive : network.node? id = some node)
    (valid : ∀ source ∈ sources, source.index < network.outputCount source.node)
    (port : OutputPort) :
    (network.rewireAll id node.sources sources).consumers port =
      (network.consumers port).filter (·.node ≠ id) ++ inputsFrom id sources port := by
  rw [consumers_rewireAll id _ valid]
  congr 1
  refine List.filter_congr fun input member => ?_
  rw [decide_eq_decide, not_iff_not, and_iff_left_iff_imp]
  rintro rfl
  have reads := linked.source?_iff.mpr member
  rwa [source?_of_node? alive] at reads

/-- The graphs with the node, with a former or with a new source in their schedules are stale. -/
theorem graph?_rewireAll (coherent : network.Coherent) (former : List OutputPort)
    (number : GraphId) :
    (network.rewireAll id former sources).graph? number =
      (network.graph? number).map fun graph =>
        if ∃ member ∈ graph.schedule, member ∈ id :: (former ++ sources).map (·.node) then
          { graph with isFresh := false }
        else graph := by
  rw [(network.stales_rewireAll id former sources).graph?]
  refine Option.map_congr fun graph found => ?_
  have known : (∃ member ∈ id :: (former.map (·.node) ++ sources.map (·.node)),
        number ∈ network.memberships member) ↔
      ∃ member ∈ graph.schedule, member ∈ id :: (former ++ sources).map (·.node) := by
    rw [← List.map_append]
    simp only [coherent.knows_iff found]
    exact exists_congr fun member => and_comm
  simp only [known]

/-- All inputs of a node can be rewired, as many as it has. -/
theorem rewirable_edges (linked : network.Linked) (alive : network.node? id = some node)
    (lengths : sources.length = node.sources.length)
    (valid : ∀ source ∈ sources, source.index < network.outputCount source.node) :
    network.Rewirable (edges id sources) where
  linked := linked
  valid pair member := valid pair.1 (List.mem_of_getElem? (mem_edges.mp member).2)
  reads pair member := by
    obtain ⟨rfl, found⟩ := mem_edges.mp member
    have below := lengths ▸ (List.getElem?_eq_some_iff.mp found).1
    exact ⟨node.sources[pair.2.index], by
      rw [source?_of_node? alive, List.getElem?_eq_getElem below]⟩
  nodup := nodup_map_snd_edges id sources

/-- Rewiring all inputs of a node concerns the node, the nodes that it read and those that it
reads. -/
theorem mem_rewiredNodes_edges (alive : network.node? id = some node) (given : sources ≠ [])
    (lengths : sources.length = node.sources.length) {other : NodeId} :
    other ∈ network.rewiredNodes (edges id sources) ↔
      other ∈ id :: (node.sources.map (·.node) ++ sources.map (·.node)) := by
  rw [mem_rewiredNodes, List.mem_cons, List.mem_append, List.mem_map, List.mem_map]
  constructor
  · rintro ⟨⟨source, ⟨_, index⟩⟩, paired, concerned⟩
    obtain ⟨rfl, found⟩ := mem_edges.mp paired
    rw [source?_of_node? alive] at concerned
    rcases concerned with rfl | rfl | ⟨former, formerly, rfl⟩
    · exact Or.inl rfl
    · exact Or.inr (Or.inr ⟨source, List.mem_of_getElem? found, rfl⟩)
    · exact Or.inr (Or.inl ⟨former, List.mem_of_getElem? formerly, rfl⟩)
  · rintro (rfl | ⟨former, member, rfl⟩ | ⟨source, member, rfl⟩)
    · obtain ⟨source, rest, rfl⟩ := List.exists_cons_of_ne_nil given
      exact ⟨(source, ⟨other, 0⟩), mem_edges.mpr ⟨rfl, rfl⟩, Or.inl rfl⟩
    · obtain ⟨index, found⟩ := List.getElem?_of_mem member
      have below := lengths ▸ (List.getElem?_eq_some_iff.mp found).1
      refine ⟨(sources[index], ⟨id, index⟩), mem_edges.mpr ⟨rfl, List.getElem?_eq_getElem below⟩,
        Or.inr (Or.inr ⟨former, ?_, rfl⟩)⟩
      rw [source?_of_node? alive, found]
    · obtain ⟨index, found⟩ := List.getElem?_of_mem member
      exact ⟨(source, ⟨id, index⟩), mem_edges.mpr ⟨rfl, found⟩, Or.inr (Or.inl rfl)⟩

/-- Rewiring all inputs of a node at once. -/
theorem rewired_rewireAll (linked : network.Linked) (alive : network.node? id = some node)
    (given : sources ≠ []) (lengths : sources.length = node.sources.length)
    (valid : ∀ source ∈ sources, source.index < network.outputCount source.node) :
    Rewired (edges id sources) network (network.rewireAll id node.sources sources) where
  reads source input member := by
    obtain ⟨same, found⟩ := mem_edges.mp member
    rw [source?_rewireAll ⟨node, alive⟩, if_pos same, found]
  keeps input unpaired := by
    rw [source?_rewireAll ⟨node, alive⟩]
    split
    next same =>
      have beyond : sources.length ≤ input.index :=
        Nat.not_lt.mp fun below => unpaired (mem_map_snd_edges.mpr ⟨same, below⟩)
      obtain ⟨_, index⟩ := input
      subst same
      rw [source?_of_node? alive, List.getElem?_eq_none beyond,
        List.getElem?_eq_none (lengths ▸ beyond)]
    · rfl
  consumers port := by
    rw [consumers_rewireAll_of_linked linked alive valid, pairedWith_edges]
    congr 1
    refine List.filter_congr fun input member => ?_
    rw [decide_eq_decide, mem_map_snd_edges, not_iff_not, iff_self_and]
    rintro rfl
    have reads := linked.source?_iff.mpr member
    rw [source?_of_node? alive] at reads
    rw [lengths]
    exact (List.getElem?_eq_some_iff.mp reads).1
  nodes := agree_rewireAll Node.unwired_reconsume (fun _ _ => rfl) network id _ _
  graphs := by
    refine (network.stales_rewireAll id node.sources sources).congr fun other => ?_
    exact (mem_rewiredNodes_edges alive given lengths).symm
  next := network.nextIds_rewireAll id _ _

end Bulk

end Network

namespace Edit

open Network

variable {network : Network}

theorem on_setSources {id : NodeId} {node : Node} {sources : List OutputPort}
    (alive : network.node? id = some node)
    (valid : ∀ source ∈ sources, source.index < network.outputCount source.node) :
    (setSources id sources).on network = (.ok (), network.rewireAll id node.sources sources) := by
  rw [setSources, on_bind, on_forM_checkPort_of_valid valid]
  dsimp only
  rw [on_bind, on_node, alive]
  rfl

/-- Inputs are rewired one after the other. -/
theorem on_forM_setSource_of_rewirable {pairs : List (OutputPort × InputPort)}
    (rewirable : network.Rewirable pairs) :
    ∃ after, (pairs.forM fun pair => setSource pair.2 pair.1).on network = (.ok (), after) ∧
      Rewired pairs network after := by
  induction pairs generalizing network with
  | nil => exact ⟨network, rfl, .refl network⟩
  | cons pair pairs ih =>
      obtain ⟨former, reads⟩ := rewirable.reads pair (List.mem_cons_self ..)
      have valid := rewirable.valid pair (List.mem_cons_self ..)
      obtain ⟨after, accepted, rewired⟩ := ih (rewirable.rest reads)
      refine ⟨after, ?_, (rewired_rewire rewirable.linked valid reads).cons rewired rewirable.apart⟩
      change (setSource pair.2 pair.1 >>= fun _ =>
        pairs.forM fun pair => setSource pair.2 pair.1).on network = _
      rw [on_bind, on_setSource valid reads]
      exact accepted

end Edit
end TensorGraph
