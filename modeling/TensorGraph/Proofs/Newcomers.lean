import TensorGraph.Proofs.Coherence
import TensorGraph.Proofs.Consumers
import TensorGraph.Proofs.ControlEdges

/-!
# New nodes

A creation adds a node that nothing depends on, or it adds none.  What was there notices a new
node only as a consumer of the outputs that the node reads: no node is changed otherwise, no graph
is changed at all, and every order that is computed is the one that would have been computed
before.  A node whose types cannot be inferred has been listed by then; releasing it takes it off
these lists, and nothing else, since everything else that they list is alive.
-/

namespace TensorGraph

/-- The node without the consumers of its outputs. -/
def Node.unconsumed (node : Node) : Node :=
  { node with outputs := node.outputs.map fun tensor => { tensor with consumers := [] } }

theorem Node.unconsumed_reconsume (node : Node) (index : Nat)
    (change : List InputPort → List InputPort) :
    (node.reconsume index change).unconsumed = node.unconsumed := by
  rw [unconsumed, node.map_reconsume index change fun _ _ => rfl]
  rfl

namespace Network

variable {before after : Network}

/-- What was there is what it was, apart from consumers. -/
def Undisturbed (before after : Network) : Prop :=
  ∀ id, before.Alive id →
    (after.node? id).map Node.unconsumed = (before.node? id).map Node.unconsumed

namespace Undisturbed

theorem of_node?_eq (same : ∀ id, after.node? id = before.node? id) : Undisturbed before after :=
  fun id _ => congrArg _ (same id)

theorem addNode (network : Network) (name : String) (operator : Operator)
    (sources : List OutputPort) (types : List TensorType) :
    Undisturbed network (network.addNode name operator sources types) := by
  intro id alive
  rw [network.node?_addNode name operator sources types Node.unconsumed_reconsume,
    if_neg (network.ne_nextId_of_alive alive)]

variable (undisturbed : Undisturbed before after) {id : NodeId} (alive : before.Alive id)

include undisturbed alive

theorem elim_eq {β : Type} {view : Node → β} (keeps : ∀ node, view node.unconsumed = view node)
    (otherwise : β) :
    (after.node? id).elim otherwise view = (before.node? id).elim otherwise view := by
  rcases map_eq_map_cases (undisturbed id alive) with
    ⟨later, former⟩ | ⟨node, other, later, former, same⟩
  · rw [later, former]
  · rw [later, former, Option.elim_some, Option.elim_some, ← keeps, same, keeps]

theorem stays : after.Alive id := by
  obtain ⟨node, found⟩ := alive
  have same := undisturbed id ⟨node, found⟩
  rw [found] at same
  obtain ⟨later, there, -⟩ := Option.map_eq_some_iff.mp same
  exact ⟨later, there⟩

theorem label_eq : after.label id = before.label id := by
  have labelled (node : Node) : node.unconsumed.label id = node.label id := rfl
  exact undisturbed.elim_eq alive labelled _

omit alive in
/-- No order that starts from what was there sees a difference. -/
theorem order_eq (coherent : before.Coherent) {roots : List NodeId}
    (present : ∀ root ∈ roots, before.Alive root) : after.order roots = before.order roots := by
  apply order_eq_of_agree before.Alive
  · exact fun id alive => iff_of_true (undisturbed.stays alive) alive
  · exact fun id alive => undisturbed.elim_eq alive (fun _ => rfl) []
  · exact fun id _ dependency depends => coherent.dependencies id dependency depends
  · exact present
  · exact fun id alive => undisturbed.label_eq alive

end Undisturbed

section Withdrawn

variable {network : Network} (linked : network.Linked) (mirrored : network.Mirrored)
  (name : String) (operator : Operator) {sources : List OutputPort}

include linked mirrored

/-- Withdrawing a node leaves every node as it was. -/
theorem node?_withdrawn_eq (sources : List OutputPort) (id : NodeId) :
    (network.withdrawn name operator sources).node? id = network.node? id := by
  rw [node?_withdrawn]
  cases alive : network.node? id with
  | none => rfl
  | some node =>
      have outputs : (node.outputs.map fun tensor =>
          { tensor with consumers := tensor.consumers.filter (network.nodes.contains ·.node) }) =
            node.outputs := by
        refine (List.map_congr_left fun tensor member => ?_).trans (List.map_id _)
        rw [linked.consumers_of_prune alive member]
        rfl
      rw [Option.map_some, Node.prune, outputs, mirrored.controlDependents_of_prune alive]

theorem consumers_withdrawn (sources : List OutputPort) (port : OutputPort) :
    (network.withdrawn name operator sources).consumers port = network.consumers port := by
  rw [consumers, tensor?, node?_withdrawn_eq linked mirrored, consumers, tensor?]

end Withdrawn

end Network

namespace Edit

open Network

variable {operator : Operator} {sources : List OutputPort} {name : Option String}
  {network : Network}

/-- A creation succeeds exactly if the operator makes sense, the sources exist and types can be
inferred from them. -/
theorem create_ok_iff :
    (∃ id, ((create operator sources name).on network).1 = .ok id) ↔
      ((checkOperator operator).on network).1 = .ok () ∧
      (∀ source ∈ sources, source.index < network.outputCount source.node) ∧
      ∃ types, network.infer operator sources = .ok types := by
  constructor
  · rintro ⟨id, created⟩
    rcases on_create_cases operator sources name network with
      ⟨error, outcome⟩ | ⟨error, outcome⟩ | ⟨types, sensible, valid, inferred, -⟩
    · rw [outcome] at created
      cases created
    · rw [outcome] at created
      cases created
    · exact ⟨congrArg Prod.fst sensible, valid, types, inferred⟩
  · rintro ⟨sensible, valid, types, inferred⟩
    have checked : (checkOperator operator).on network = (.ok (), network) := by
      rw [on_checkOperator, sensible]
    rw [on_create_of_inferred name checked valid inferred]
    exact ⟨_, rfl⟩

/-- A creation that is refused for want of types has listed the inputs of the node among the
consumers of its sources when it releases the node. -/
theorem on_create_of_untypable
    (sensible : ((checkOperator operator).on network).1 = .ok ())
    (valid : ∀ source ∈ sources, source.index < network.outputCount source.node)
    (untypable : ∀ types, network.infer operator sources ≠ .ok types) :
    ∃ (error : GraphError) (registered : Network),
      (create operator sources name).on network =
        (.error error, registered.discard network.nodes.nextId) ∧
      registered.Alive network.nodes.nextId ∧
      ∀ port, registered.consumers port =
        network.consumers port ++ inputsFrom network.nodes.nextId sources port := by
  have checked : (checkOperator operator).on network = (.ok (), network) := by
    rw [on_checkOperator, sensible]
  have answer := on_create_of_accepted name checked valid
  cases inferred : network.infer operator sources with
  | ok types => exact absurd inferred (untypable types)
  | error cause =>
      rw [inferred] at answer
      exact ⟨_, _, answer, (alive_addNode_iff ..).mpr (Or.inl rfl),
        consumers_addNode _ _ _ _ valid⟩

/-- A creation leaves what was there as it was, whether or not it succeeds. -/
theorem undisturbed_create (linked : network.Linked) (mirrored : network.Mirrored)
    (operator : Operator) (sources : List OutputPort) (name : Option String) :
    Undisturbed network ((create operator sources name).on network).2 := by
  rcases on_create_cases operator sources name network with
    ⟨error, outcome⟩ | ⟨error, outcome⟩ | ⟨types, -, -, -, outcome⟩ <;> rw [outcome]
  · exact .of_node?_eq fun _ => rfl
  · exact .of_node?_eq (node?_withdrawn_eq linked mirrored _ operator sources)
  · exact .addNode network _ operator sources types

end Edit

namespace Session

open Network

variable {session : Session}

/-- A creation, whether or not it succeeds, changes nothing about any node that was there but the
consumers of its outputs, nothing about graphs, and no order that would be computed for a graph.
If it succeeds, it adds one node, and each output has the inputs of the node that read it as further
consumers, at the end and in order; if it does not, every node is what it was, with the consumers
that it had, and there is no other.  A creation that is refused since no types can be inferred has
listed the inputs of the node among the consumers of its sources before it releases the node. -/
theorem Reachable.creation_disturbs_nothing (reachable : session.Reachable) (operator : Operator)
    (sources : List OutputPort) (name : Option String) {outcome : Except GraphError NodeId}
    {after : Network}
    (created : (Edit.create operator sources name).on session.network = (outcome, after)) :
    Undisturbed session.network after ∧
    after.graphs = session.network.graphs ∧ after.events = session.network.events ∧
    (∀ number graph, session.network.graph? number = some graph →
      after.order graph.currentRoots = session.network.order graph.currentRoots) ∧
    ((∃ id, outcome = .ok id) ↔
      ((Edit.checkOperator operator).on session.network).1 = .ok () ∧
      (∀ source ∈ sources, source.index < session.network.outputCount source.node) ∧
      ∃ types, session.network.infer operator sources = .ok types) ∧
    (∀ id, outcome = .ok id → ¬ session.network.Alive id ∧
      (∀ other, after.Alive other ↔ other = id ∨ session.network.Alive other) ∧
      after.sources id = sources ∧
      ∀ port, after.consumers port =
        session.network.consumers port ++ inputsFrom id sources port) ∧
    (∀ error, outcome = .error error →
      (∀ id, after.node? id = session.network.node? id) ∧
      ∀ port, after.consumers port = session.network.consumers port) ∧
    (((Edit.checkOperator operator).on session.network).1 = .ok () →
      (∀ source ∈ sources, source.index < session.network.outputCount source.node) →
      (∀ types, session.network.infer operator sources ≠ .ok types) →
      ∃ (error : GraphError) (registered : Network), outcome = .error error ∧
        after = registered.discard session.network.nodes.nextId ∧
        registered.Alive session.network.nodes.nextId ∧
        ∀ port, registered.consumers port = session.network.consumers port ++
          inputsFrom session.network.nodes.nextId sources port) := by
  have linked := reachable.linked
  have mirrored := reachable.mirrored
  have undisturbed := Edit.undisturbed_create linked mirrored operator sources name
  have accepted := @Edit.create_ok_iff operator sources name session.network
  have orders (number : GraphId) (graph : Graph)
      (found : session.network.graph? number = some graph) :
      ((Edit.create operator sources name).on session.network).2.order graph.currentRoots =
        session.network.order graph.currentRoots :=
    undisturbed.order_eq reachable.coherent (reachable.coherent.alive_of_mem_currentRoots found)
  have registers := @Edit.on_create_of_untypable operator sources name session.network
  rw [created] at registers
  simp only [Prod.mk.injEq, and_assoc] at registers
  rcases Edit.on_create_cases operator sources name session.network with
    ⟨error, refused⟩ | ⟨error, refused⟩ | ⟨types, -, valid, -, added⟩
  · obtain ⟨rfl, rfl⟩ := Prod.mk.inj (refused.symm.trans created)
    rw [created] at undisturbed accepted orders
    exact ⟨undisturbed, rfl, rfl, orders, accepted, nofun, fun _ _ => ⟨fun _ => rfl, fun _ => rfl⟩,
      registers⟩
  · obtain ⟨rfl, rfl⟩ := Prod.mk.inj (refused.symm.trans created)
    rw [created] at undisturbed accepted orders
    exact ⟨undisturbed, graphs_withdrawn _ _ _ _, events_withdrawn _ _ _ _, orders, accepted, nofun,
      fun _ _ => ⟨node?_withdrawn_eq linked mirrored _ _ _,
        consumers_withdrawn linked mirrored _ _ _⟩, registers⟩
  · obtain ⟨rfl, rfl⟩ := Prod.mk.inj (added.symm.trans created)
    rw [created] at undisturbed accepted orders
    refine ⟨undisturbed, graphs_addNode _ _ _ _ _, events_addNode _ _ _ _ _, orders, accepted,
      fun id same => ?_, nofun, registers⟩
    obtain rfl := Except.ok.inj same
    refine ⟨session.network.not_alive_nextId, fun other => alive_addNode_iff .., ?_,
      consumers_addNode _ _ _ _ valid⟩
    rw [sources_addNode, if_pos rfl]

/-- A graph with a fresh schedule, and one whose nodes have come to depend on each other in a
cycle. -/
def settledIn : Session :=
  empty.run [
    .create (.parameter { elementType := .f32, shape := .fixed [2, 3] }) [] none (.text "feed"),
    .create .relu [⟨1, 0⟩] none (.text "gate"),
    .create .result [⟨2, 0⟩] none (.text "outcome"),
    .createGraph [3] [1] [] .absent (.text "graph"),
    .create (.concat 0) [⟨1, 0⟩, ⟨1, 0⟩] none (.text "joint"),
    .create .result [⟨4, 0⟩] none (.text "round"),
    .createGraph [5] [1] [] .absent (.text "ring"),
    .setSource ⟨4, 1⟩ ⟨4, 0⟩,
    .schedule "graph"]

theorem settledIn_reachable : settledIn.Reachable :=
  ⟨_, rfl⟩

theorem answers_settledIn :
    ((Edit.create (.concat 0) [⟨2, 0⟩, ⟨1, 0⟩, ⟨2, 0⟩] none).on settledIn.network).1 = .ok 6 ∧
    ((Edit.create (.concat 7) [⟨2, 0⟩, ⟨1, 0⟩, ⟨2, 0⟩] none).on settledIn.network).1.isOk = false ∧
    settledIn.network.consumers ⟨2, 0⟩ = [⟨3, 0⟩] ∧
    (settledIn.network.graph? 1).map (fun graph => (graph.currentRoots, graph.isFresh)) =
      some ([3, 1], true) ∧
    (settledIn.network.graph? 2).map (fun graph => (graph.currentRoots, graph.isFresh)) =
      some ([5, 1], false) ∧
    settledIn.network.nodes.nextId = 6 ∧
    settledIn.network.order [3, 1] = .ok [1, 2, 3] ∧
    settledIn.network.order [5, 1] = .error (.cycle ⟨4, "Concat_4", "Concat"⟩) := by
  cbv

/-- A concatenation comes to read an output of the graph twice; one for an axis that is not there
is refused after it had come to read it. -/
theorem created_settledIn :
    settledIn.Reachable ∧
    (∃ after, (Edit.create (.concat 0) [⟨2, 0⟩, ⟨1, 0⟩, ⟨2, 0⟩] none).on settledIn.network =
        (.ok 6, after) ∧
      after.graphs = settledIn.network.graphs ∧
      after.consumers ⟨2, 0⟩ = [⟨3, 0⟩, ⟨6, 0⟩, ⟨6, 2⟩] ∧
      after.order [3, 1] = .ok [1, 2, 3] ∧
      after.order [5, 1] = .error (.cycle ⟨4, "Concat_4", "Concat"⟩)) ∧
    ∃ error after, (Edit.create (.concat 7) [⟨2, 0⟩, ⟨1, 0⟩, ⟨2, 0⟩] none).on settledIn.network =
        (.error error, after) ∧
      (∀ id, after.node? id = settledIn.network.node? id) ∧
      after.consumers ⟨2, 0⟩ = [⟨3, 0⟩] ∧
      ∃ registered : Network, after = registered.discard 6 ∧
        registered.consumers ⟨2, 0⟩ = [⟨3, 0⟩, ⟨6, 0⟩, ⟨6, 2⟩] := by
  obtain ⟨made, refused, ofGate, graph, ring, next, ordered, cyclic⟩ := answers_settledIn
  obtain ⟨first, foundFirst, same⟩ := Option.map_eq_some_iff.mp graph
  obtain ⟨second, foundSecond, other⟩ := Option.map_eq_some_iff.mp ring
  have rootsFirst := congrArg Prod.fst same
  have rootsSecond := congrArg Prod.fst other
  dsimp only at rootsFirst rootsSecond
  have valid := (Edit.create_ok_iff.mp ⟨6, made⟩).2.1
  refine ⟨settledIn_reachable, ?_, ?_⟩
  · obtain ⟨⟨outcome, after⟩, created⟩ : ∃ answer,
        (Edit.create (.concat 0) [⟨2, 0⟩, ⟨1, 0⟩, ⟨2, 0⟩] none).on settledIn.network = answer :=
      ⟨_, rfl⟩
    rw [created] at made
    obtain rfl : outcome = .ok 6 := made
    obtain ⟨-, graphs, -, orders, -, added, -, -⟩ :=
      settledIn_reachable.creation_disturbs_nothing _ _ _ created
    obtain ⟨-, -, -, consumers⟩ := added 6 rfl
    refine ⟨after, created, graphs, ?_, ?_, ?_⟩
    · rw [consumers, ofGate]
      rfl
    · rw [← rootsFirst, orders 1 first foundFirst, rootsFirst, ordered]
    · rw [← rootsSecond, orders 2 second foundSecond, rootsSecond, cyclic]
  · obtain ⟨⟨outcome, after⟩, created⟩ : ∃ answer,
        (Edit.create (.concat 7) [⟨2, 0⟩, ⟨1, 0⟩, ⟨2, 0⟩] none).on settledIn.network = answer :=
      ⟨_, rfl⟩
    rw [created] at refused
    cases outcome with
    | ok id => cases refused
    | error error =>
        obtain ⟨-, -, -, -, accepted, -, unchanged, registering⟩ :=
          settledIn_reachable.creation_disturbs_nothing _ _ _ created
        obtain ⟨nodes, consumers⟩ := unchanged error rfl
        have untypable (types : List TensorType) :
            settledIn.network.infer (.concat 7) [⟨2, 0⟩, ⟨1, 0⟩, ⟨2, 0⟩] ≠ .ok types := by
          intro inferred
          obtain ⟨id, made⟩ := accepted.mpr ⟨rfl, valid, types, inferred⟩
          cases made
        obtain ⟨-, registered, -, released, -, listed⟩ := registering rfl valid untypable
        rw [next] at released listed
        refine ⟨error, after, created, nodes, (consumers _).trans ofGate, registered, released, ?_⟩
        rw [listed, ofGate]
        rfl

end Session
end TensorGraph
