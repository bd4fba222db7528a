import Mathlib
import TensorGraph.Proofs.Superseding

/-!
# Giving consumers away

What is left of an output and of the one that takes its consumers over.  The consumers are moved
one after the other, and each move takes one of them off the former list and puts it at the end
of the other; so the former list keeps what is not moved, the other one has what was moved
behind what it had, and nothing else about any node is changed.
-/

namespace TensorGraph
namespace Network

variable {network : Network} {former source : OutputPort}

/-- The former output keeps the consumers that are not moved, in their order. -/
theorem consumers_rewireEach_former (valid : source.index < network.outputCount source.node)
    (different : former ≠ source) (inputs : List InputPort) :
    (network.rewireEach former source inputs).consumers former =
      (network.consumers former).filter (· ∉ inputs) := by
  induction inputs generalizing network with
  | nil => simp [rewireEach]
  | cons input inputs ih =>
      rw [rewireEach_cons, ih (by rwa [outputCount_rewire]), consumers_rewire input former valid,
        if_pos rfl, if_neg different.symm, List.append_nil, List.filter_filter]
      refine List.filter_congr fun other _ => ?_
      rw [← Bool.decide_and, decide_eq_decide, List.mem_cons, not_or, and_comm]

/-- The other output has the moved consumers behind its own, in the order of the moves. -/
theorem consumers_rewireEach_source (valid : source.index < network.outputCount source.node)
    (different : former ≠ source) (inputs : List InputPort) :
    (network.rewireEach former source inputs).consumers source =
      network.consumers source ++ inputs := by
  induction inputs generalizing network with
  | nil => simp [rewireEach]
  | cons input inputs ih =>
      rw [rewireEach_cons, ih (by rwa [outputCount_rewire]), consumers_rewire input former valid,
        if_neg different, if_pos rfl, List.append_assoc, List.singleton_append]

theorem consumers_moveConsumers_former (valid : source.index < network.outputCount source.node)
    (different : former ≠ source) :
    (network.moveConsumers former source).consumers former =
      (network.consumers former).filter (·.node = source.node) := by
  rw [moveConsumers, if_neg different, consumers_touch,
    consumers_rewireEach_former valid different, consumersApart]
  refine List.filter_congr fun input member => ?_
  simp [member]

theorem consumers_moveConsumers_source (valid : source.index < network.outputCount source.node)
    (different : former ≠ source) :
    (network.moveConsumers former source).consumers source =
      network.consumers source ++ network.consumersApart former source.node := by
  rw [moveConsumers, if_neg different, consumers_touch,
    consumers_rewireEach_source valid different]

end Network

/-- A node without its data edges, as they are listed at both of their ends. -/
def Node.unwired (node : Node) : Node :=
  { node with
    sources := []
    outputs := node.outputs.map fun tensor => { tensor with consumers := [] } }

theorem Node.unwired_reconsume (node : Node) (index : Nat)
    (change : List InputPort → List InputPort) :
    (node.reconsume index change).unwired = node.unwired := by
  rw [unwired, node.map_reconsume index change fun _ _ => rfl]
  rfl

namespace Network

/-- The nodes at the ends of the edges that are changed when an output gives its consumers to
another one. -/
def parties (network : Network) (former source : OutputPort) : List NodeId :=
  former.node :: source.node :: (network.consumersApart former source.node).map (·.node)

/-- One output has given its consumers to another one, apart from the inputs of the node that
has the other one.  Nothing but data edges has changed about nodes, and nothing about graphs
but that those with one of the concerned nodes in their schedule are stale. -/
structure Transferred (before after : Network) (former source : OutputPort) : Prop where
  moved : ∀ input, before.source? input = some former → input.node ≠ source.node →
    after.source? input = some source
  kept : ∀ input, (before.source? input = some former → input.node = source.node) →
    after.source? input = before.source? input
  remaining : after.consumers former =
    (before.consumers former).filter (·.node = source.node)
  received : after.consumers source =
    before.consumers source ++ (before.consumers former).filter (·.node ≠ source.node)
  others : ∀ port, port ≠ former → port ≠ source → after.consumers port = before.consumers port
  nodes : Agree Node.unwired before after
  graphs : ∀ id, after.graph? id = (before.graph? id).map fun graph =>
    if ∃ node ∈ graph.schedule, node ∈ before.parties former source then
      { graph with isFresh := false }
    else graph

theorem transferred_moveConsumers (coherent : network.Coherent) (linked : network.Linked)
    (different : former ≠ source) (valid : source.index < network.outputCount source.node) :
    Transferred network (network.moveConsumers former source) former source where
  moved input reads apart := by
    rw [source?_moveConsumers linked, if_pos ⟨reads, apart⟩]
  kept input own := by
    rw [source?_moveConsumers linked, if_neg fun both => both.2 (own both.1)]
  remaining := consumers_moveConsumers_former valid different
  received := consumers_moveConsumers_source valid different
  others _ notFormer notSource :=
    consumers_moveConsumers_of_ne valid notFormer.symm notSource.symm
  nodes := network.agree_moveConsumers Node.unwired_reconsume (fun _ _ => rfl) former source
  graphs id := by
    rw [(network.stales_moveConsumers different).graph?]
    refine Option.map_congr fun graph found => ?_
    have knows : (∃ node ∈ (network.consumersApart former source.node).map (·.node) ++
          [former.node, source.node], id ∈ network.memberships node) ↔
        ∃ node ∈ graph.schedule, node ∈ network.parties former source := by
      simp only [coherent.knows_iff found, parties, List.mem_append, List.mem_cons,
        List.not_mem_nil, or_false]
      exact exists_congr fun node => by tauto
    simp only [knows]

namespace Transferred

variable {before after : Network} (transferred : Transferred before after former source)

include transferred

theorem controlDependencies_eq (id : NodeId) :
    after.controlDependencies id = before.controlDependencies id :=
  (transferred.nodes.map Node.controlDependencies).elim_eq id []

theorem controlDependents_eq (id : NodeId) :
    after.controlDependents id = before.controlDependents id :=
  (transferred.nodes.map Node.controlDependents).elim_eq id []

theorem storedTypes_eq (id : NodeId) : after.storedTypes id = before.storedTypes id := by
  have types : Agree (fun node => node.outputs.map (·.type)) before after := by
    have same := transferred.nodes.map fun node => node.outputs.map (·.type)
    simpa only [Node.unwired, List.map_map, Function.comp_def] using same
  exact types.elim_eq id []

theorem ownNames_eq (port : OutputPort) : after.ownNames port = before.ownNames port := by
  have names : Agree (fun node => node.outputs.map (·.names)) before after := by
    have same := transferred.nodes.map fun node => node.outputs.map (·.names)
    simpa only [Node.unwired, List.map_map, Function.comp_def] using same
  exact names.ownNames_eq port

theorem tensorNames_eq {port : OutputPort} (noResult : before.isResult port.node = false) :
    after.tensorNames port = before.tensorNames port := by
  have roles := transferred.nodes.map (·.operator.role)
  have still : after.isResult port.node = false := by
    rw [isResult, show after.role? port.node = before.role? port.node from roles _]
    exact noResult
  rw [tensorNames_of_not_result still, tensorNames_of_not_result noResult,
    transferred.ownNames_eq]

theorem frame_eq (id : GraphId) :
    (after.graph? id).map Graph.frame = (before.graph? id).map Graph.frame := by
  rw [transferred.graphs, Option.map_map]
  congr 1
  funext graph
  rw [Function.comp_apply]
  split <;> rfl

end Transferred

end Network

namespace Session

open Network

/-- An output can give its consumers to every other one, which changes nothing but data edges
and makes those graphs stale that have a concerned node in their schedule.  Control edges, the
names of tensors, stored types and the boundaries of graphs stay as they are. -/
theorem Reachable.replace_output_transfers {session : Session} (reachable : session.Reachable)
    {former source : OutputPort} (different : former ≠ source)
    (valid : source.index < session.network.outputCount source.node) :
    ∃ after, (Edit.replaceOutput former source).on session.network = (.ok (), after) ∧
      Transferred session.network after former source ∧
      (∀ id, after.controlDependencies id = session.network.controlDependencies id ∧
        after.controlDependents id = session.network.controlDependents id ∧
        after.storedTypes id = session.network.storedTypes id) ∧
      (∀ port, after.ownNames port = session.network.ownNames port ∧
        (session.network.isResult port.node = false →
          after.tensorNames port = session.network.tensorNames port)) ∧
      ∀ id, (after.graph? id).map Graph.frame = (session.network.graph? id).map Graph.frame := by
  have transferred :=
    transferred_moveConsumers reachable.coherent reachable.intact.linked different valid
  refine ⟨session.network.moveConsumers former source, ?_, transferred, fun id => ?_,
    fun port => ⟨transferred.ownNames_eq port, transferred.tensorNames_eq⟩, transferred.frame_eq⟩
  · rw [Edit.on_replaceOutput reachable.intact.linked, if_pos valid]
  · exact ⟨transferred.controlDependencies_eq id, transferred.controlDependents_eq id,
      transferred.storedTypes_eq id⟩

/-- A rectifier and one that reads it, with a concatenation that reads the first twice and the
second in between, and a graph of them. -/
def yielding : Session :=
  empty.run [
    .create (.parameter { elementType := .f32, shape := .fixed [2, 3] }) [] none (.text "feed"),
    .create .relu [⟨1, 0⟩] none (.text "former"),
    .create .relu [⟨2, 0⟩] none (.text "source"),
    .create (.concat 0) [⟨2, 0⟩, ⟨3, 0⟩, ⟨2, 0⟩] none (.text "joint"),
    .create .result [⟨4, 0⟩] none (.text "outcome"),
    .createGraph [5] [1] [] .absent (.text "graph"),
    .setNames ⟨2, 0⟩ ["kept"]]

theorem yielding_reachable : yielding.Reachable :=
  ⟨_, rfl⟩

theorem edges_yielding :
    yielding.network.consumers ⟨2, 0⟩ = [⟨3, 0⟩, ⟨4, 0⟩, ⟨4, 2⟩] ∧
    yielding.network.consumers ⟨3, 0⟩ = [⟨4, 1⟩] ∧
    yielding.network.source? ⟨3, 0⟩ = some ⟨2, 0⟩ ∧
    yielding.network.source? ⟨4, 2⟩ = some ⟨2, 0⟩ ∧
    (yielding.network.graph? 1).map (fun graph => (graph.schedule, graph.isFresh)) =
      some ([1, 2, 3, 4, 5], true) ∧
    0 < yielding.network.outputCount 3 := by
  cbv

/-- The rectifier that comes behind the former one goes on reading it, and the inputs of the
concatenation come behind the one that read the source before. -/
theorem transfer_yielding :
    ∃ after, (Edit.replaceOutput ⟨2, 0⟩ ⟨3, 0⟩).on yielding.network = (.ok (), after) ∧
      after.source? ⟨3, 0⟩ = some ⟨2, 0⟩ ∧ after.source? ⟨4, 2⟩ = some ⟨3, 0⟩ ∧
      after.consumers ⟨2, 0⟩ = [⟨3, 0⟩] ∧
      after.consumers ⟨3, 0⟩ = [⟨4, 1⟩, ⟨4, 0⟩, ⟨4, 2⟩] ∧
      (after.graph? 1).map (·.isFresh) = some false := by
  obtain ⟨consumers, others, behind, joint, graph, valid⟩ := edges_yielding
  have different : (⟨2, 0⟩ : OutputPort) ≠ ⟨3, 0⟩ := by decide
  obtain ⟨after, accepted, transferred, -⟩ :=
    yielding_reachable.replace_output_transfers different valid
  refine ⟨after, accepted, ?_, transferred.moved _ joint (by decide), ?_, ?_, ?_⟩
  · rw [transferred.kept _ fun _ => rfl, behind]
  · rw [transferred.remaining, consumers]
    rfl
  · rw [transferred.received, consumers, others]
    rfl
  · obtain ⟨stored, found, parts⟩ := Option.map_eq_some_iff.mp graph
    obtain ⟨schedule, -⟩ := Prod.mk.inj parts
    have concerned : ∃ node ∈ stored.schedule, node ∈ yielding.network.parties ⟨2, 0⟩ ⟨3, 0⟩ :=
      ⟨2, by rw [schedule]; decide, List.mem_cons_self ..⟩
    rw [transferred.graphs, found, Option.map_some, if_pos concerned]
    rfl

end Session
end TensorGraph
