import Mathlib
import TensorGraph.Proofs.Outputs

/-!
# Control edges at both ends

A node is ordered after another exactly if the other lists it among its dependents; each
end lists the edge once, and no node is ordered after itself.  Only the moves that add,
remove or clear control edges touch these lists, each at both ends, and a release takes a
dependent off a list only together with the dependent.
-/

namespace TensorGraph
namespace Network

/-- Both ends of every control edge list it once, and no node is ordered after itself. -/
structure Mirrored (network : Network) : Prop where
  mem_iff : ∀ dependent dependency, dependency ∈ network.controlDependencies dependent ↔
    dependent ∈ network.controlDependents dependency
  nodup_dependencies : ∀ id, (network.controlDependencies id).Nodup
  nodup_dependents : ∀ id, (network.controlDependents id).Nodup
  apart : ∀ id, id ∉ network.controlDependencies id

/-- The ends of control edges at a node. -/
def controls (node : Node) : List NodeId × List NodeId :=
  (node.controlDependencies, node.controlDependents)

variable {network before after : Network}

section Ends

theorem Agree.controlDependencies_eq (agree : Agree controls before after) (id : NodeId) :
    after.controlDependencies id = before.controlDependencies id :=
  (agree.map Prod.fst).elim_eq id []

theorem Agree.controlDependents_eq (agree : Agree controls before after) (id : NodeId) :
    after.controlDependents id = before.controlDependents id :=
  (agree.map Prod.snd).elim_eq id []

theorem alive_of_mem_controlDependencies {dependent dependency : NodeId}
    (member : dependency ∈ network.controlDependencies dependent) : network.Alive dependent := by
  rw [controlDependencies] at member
  cases found : network.node? dependent with
  | none => simp [found] at member
  | some node => exact ⟨node, found⟩

theorem alive_of_mem_controlDependents {dependent dependency : NodeId}
    (member : dependent ∈ network.controlDependents dependency) : network.Alive dependency := by
  rw [controlDependents] at member
  cases found : network.node? dependency with
  | none => simp [found] at member
  | some node => exact ⟨node, found⟩

/-- A node depends on the nodes that have what it reads, and on its control dependencies. -/
theorem mem_dependencies_iff {id dependency : NodeId} :
    dependency ∈ network.dependencies id ↔
      (∃ index port, network.source? ⟨id, index⟩ = some port ∧ port.node = dependency) ∨
        dependency ∈ network.controlDependencies id := by
  rw [dependencies, controlDependencies]
  simp only [source?, sources]
  cases network.node? id with
  | none => simp
  | some node =>
      simp only [Option.elim_some, Node.dependencies, List.mem_append, List.mem_map]
      refine or_congr_left ⟨?_, ?_⟩
      · rintro ⟨port, read, same⟩
        obtain ⟨index, reads⟩ := List.mem_iff_getElem?.mp read
        exact ⟨index, port, reads, same⟩
      · rintro ⟨index, port, reads, same⟩
        exact ⟨port, List.mem_of_getElem? reads, same⟩

/-- A control dependency is a dependency. -/
theorem mem_dependencies_of_control {dependent dependency : NodeId}
    (member : dependency ∈ network.controlDependencies dependent) :
    dependency ∈ network.dependencies dependent :=
  mem_dependencies_iff.mpr (Or.inr member)

end Ends

section Lists

theorem controlDependencies_addControl {dependent : NodeId} (alive : network.Alive dependent)
    (dependency id : NodeId) :
    (network.addControl dependent dependency).controlDependencies id =
      if id = dependent then network.controlDependencies id ++ [dependency]
      else network.controlDependencies id := by
  have backward (forward : Network) : Agree Node.controlDependencies forward
      (forward.modifyNode dependency fun node =>
        { node with controlDependents := node.controlDependents ++ [dependent] }) :=
    agree_modifyNode forward dependency fun _ => rfl
  rw [addControl, controlDependencies, node?_touch, (backward _).elim_eq id []]
  exact elim_modifyNode (· ++ [dependency]) (fun _ => rfl) (Or.inl alive) id

theorem controlDependents_addControl {dependency : NodeId} (dependent : NodeId)
    (alive : network.Alive dependency) (id : NodeId) :
    (network.addControl dependent dependency).controlDependents id =
      if id = dependency then network.controlDependents id ++ [dependent]
      else network.controlDependents id := by
  have forward : Agree Node.controlDependents network (network.modifyNode dependent fun node =>
      { node with controlDependencies := node.controlDependencies ++ [dependency] }) :=
    agree_modifyNode network dependent fun _ => rfl
  have same : _ = network.controlDependents id := forward.elim_eq id []
  rw [addControl, controlDependents, node?_touch, ← same]
  exact elim_modifyNode (· ++ [dependent]) (fun _ => rfl)
    (Or.inl ((forward.alive_iff dependency).mpr alive)) id

theorem controlDependents_forgetDependent (network : Network) (dependent dependency id : NodeId) :
    (forgetDependent dependent network dependency).controlDependents id =
      if id = dependency then (network.controlDependents id).filter (· ≠ dependent)
      else network.controlDependents id :=
  elim_modifyNode (List.filter (· ≠ dependent)) (fun _ => rfl) (Or.inr rfl) id

theorem controlDependencies_removeControl (network : Network) (dependent dependency id : NodeId) :
    (network.removeControl dependent dependency).controlDependencies id =
      if id = dependent then (network.controlDependencies id).filter (· ≠ dependency)
      else network.controlDependencies id := by
  have backward (forward : Network) : Agree Node.controlDependencies forward
      (forgetDependent dependent forward dependency) :=
    agree_modifyNode forward dependency fun _ => rfl
  rw [removeControl, controlDependencies, node?_touch, (backward _).elim_eq id []]
  exact elim_modifyNode (List.filter (· ≠ dependency)) (fun _ => rfl) (Or.inr rfl) id

theorem controlDependents_removeControl (network : Network) (dependent dependency id : NodeId) :
    (network.removeControl dependent dependency).controlDependents id =
      if id = dependency then (network.controlDependents id).filter (· ≠ dependent)
      else network.controlDependents id := by
  have forward : Agree Node.controlDependents network (network.modifyNode dependent fun node =>
      { node with controlDependencies := node.controlDependencies.filter (· ≠ dependency) }) :=
    agree_modifyNode network dependent fun _ => rfl
  have same : _ = network.controlDependents id := forward.elim_eq id []
  rw [removeControl, controlDependents, node?_touch, ← same]
  exact controlDependents_forgetDependent _ dependent dependency id

theorem controlDependents_forgetDependents (network : Network) (dependent : NodeId)
    (former : List NodeId) (id : NodeId) :
    (former.foldl (forgetDependent dependent) network).controlDependents id =
      if id ∈ former then (network.controlDependents id).filter (· ≠ dependent)
      else network.controlDependents id := by
  induction former generalizing network with
  | nil => simp
  | cons dependency former ih =>
      rw [List.foldl_cons, ih, controlDependents_forgetDependent]
      by_cases now : id = dependency <;> by_cases later : id ∈ former <;>
        simp [now, later, List.filter_filter]

theorem controlDependencies_clearControl (network : Network) (dependent : NodeId)
    (former : List NodeId) (id : NodeId) :
    (network.clearControl dependent former).controlDependencies id =
      if id = dependent then [] else network.controlDependencies id := by
  have backward (forward : Network) : Agree Node.controlDependencies forward
      (former.foldl (forgetDependent dependent) forward) :=
    agree_forgetDependents forward dependent former fun _ _ => rfl
  rw [clearControl, controlDependencies, node?_touch, (backward _).elim_eq id []]
  exact elim_modifyNode (fun _ => []) (fun _ => rfl) (Or.inr rfl) id

theorem controlDependents_clearControl (network : Network) (dependent : NodeId)
    (former : List NodeId) (id : NodeId) :
    (network.clearControl dependent former).controlDependents id =
      if id ∈ former then (network.controlDependents id).filter (· ≠ dependent)
      else network.controlDependents id := by
  have forward : Agree Node.controlDependents network
      (network.modifyNode dependent ({ · with controlDependencies := [] })) :=
    agree_modifyNode network dependent fun _ => rfl
  have same : _ = network.controlDependents id := forward.elim_eq id []
  rw [clearControl, controlDependents, node?_touch, ← same]
  exact controlDependents_forgetDependents _ dependent former id

end Lists

namespace Mirrored

theorem of_agree (mirrored : before.Mirrored) (agree : Agree controls before after) :
    after.Mirrored where
  mem_iff dependent dependency := by
    rw [agree.controlDependencies_eq, agree.controlDependents_eq]
    exact mirrored.mem_iff dependent dependency
  nodup_dependencies id := agree.controlDependencies_eq id ▸ mirrored.nodup_dependencies id
  nodup_dependents id := agree.controlDependents_eq id ▸ mirrored.nodup_dependents id
  apart id := agree.controlDependencies_eq id ▸ mirrored.apart id

theorem of_nodes (mirrored : before.Mirrored) (nodes : ∀ id, after.node? id = before.node? id) :
    after.Mirrored :=
  mirrored.of_agree (.of_node?_eq nodes)

theorem of_addControl (mirrored : before.Mirrored) {dependent dependency : NodeId}
    (distinct : dependent ≠ dependency) (alive : before.Alive dependent)
    (present : before.Alive dependency) (new : dependency ∉ before.controlDependencies dependent) :
    (before.addControl dependent dependency).Mirrored where
  mem_iff other target := by
    rw [controlDependencies_addControl alive, controlDependents_addControl dependent present]
    have known := mirrored.mem_iff other target
    split <;> split <;> simp_all
  nodup_dependencies id := by
    rw [controlDependencies_addControl alive]
    split
    next here =>
      rw [← List.concat_eq_append]
      exact (mirrored.nodup_dependencies id).concat (here ▸ new)
    · exact mirrored.nodup_dependencies id
  nodup_dependents id := by
    have unlisted : dependent ∉ before.controlDependents dependency :=
      mt (mirrored.mem_iff dependent dependency).mpr new
    rw [controlDependents_addControl dependent present]
    split
    next here =>
      rw [← List.concat_eq_append]
      exact (mirrored.nodup_dependents id).concat (here ▸ unlisted)
    · exact mirrored.nodup_dependents id
  apart id := by
    rw [controlDependencies_addControl alive]
    split
    next here => simp [mirrored.apart id, here ▸ distinct]
    · exact mirrored.apart id

theorem of_removeControl (mirrored : before.Mirrored) (dependent dependency : NodeId) :
    (before.removeControl dependent dependency).Mirrored where
  mem_iff other target := by
    rw [controlDependencies_removeControl, controlDependents_removeControl]
    have known := mirrored.mem_iff other target
    split <;> split <;> simp_all
  nodup_dependencies id := by
    rw [controlDependencies_removeControl]
    split
    · exact (mirrored.nodup_dependencies id).filter _
    · exact mirrored.nodup_dependencies id
  nodup_dependents id := by
    rw [controlDependents_removeControl]
    split
    · exact (mirrored.nodup_dependents id).filter _
    · exact mirrored.nodup_dependents id
  apart id := by
    rw [controlDependencies_removeControl]
    split
    · exact fun member => mirrored.apart id (List.mem_filter.mp member).1
    · exact mirrored.apart id

/-- Clearing takes the node off the list of each node that it was ordered after. -/
theorem of_clearControl (mirrored : before.Mirrored) (dependent : NodeId) :
    (before.clearControl dependent (before.controlDependencies dependent)).Mirrored where
  mem_iff other target := by
    rw [controlDependencies_clearControl, controlDependents_clearControl]
    have known := mirrored.mem_iff other target
    split <;> split <;> simp_all
  nodup_dependencies id := by
    rw [controlDependencies_clearControl]
    split
    · exact List.nodup_nil
    · exact mirrored.nodup_dependencies id
  nodup_dependents id := by
    rw [controlDependents_clearControl]
    split
    · exact (mirrored.nodup_dependents id).filter _
    · exact mirrored.nodup_dependents id
  apart id := by
    rw [controlDependencies_clearControl]
    split
    · exact List.not_mem_nil
    · exact mirrored.apart id

/-- A new node has no control edges, and the number that it takes had none. -/
theorem of_addNode (mirrored : before.Mirrored) (name : String) (operator : Operator)
    (sources : List OutputPort) (types : List TensorType) :
    (before.addNode name operator sources types).Mirrored := by
  have absent : before.node? before.nodes.nextId = none :=
    Option.eq_none_iff_forall_ne_some.mpr fun node found => before.not_alive_nextId ⟨node, found⟩
  have dependencies (id : NodeId) :
      (before.addNode name operator sources types).controlDependencies id =
        before.controlDependencies id := by
    refine (before.elim_addNode name operator sources types (fun _ _ _ => rfl) [] id).trans ?_
    split
    next new => rw [controlDependencies, new, absent]; rfl
    · rfl
  have dependents (id : NodeId) :
      (before.addNode name operator sources types).controlDependents id =
        before.controlDependents id := by
    refine (before.elim_addNode name operator sources types (fun _ _ _ => rfl) [] id).trans ?_
    split
    next new => rw [controlDependents, new, absent]; rfl
    · rfl
  refine ⟨fun dependent dependency => ?_, fun id => ?_, fun id => ?_, fun id => ?_⟩
  · rw [dependencies, dependents]
    exact mirrored.mem_iff dependent dependency
  · exact dependencies id ▸ mirrored.nodup_dependencies id
  · exact dependents id ▸ mirrored.nodup_dependents id
  · exact dependencies id ▸ mirrored.apart id

/-- A node that stays keeps what it is ordered after, and forgets exactly the dependents that
go. -/
theorem of_release (mirrored : before.Mirrored) (held : List NodeId) :
    (before.release held).Mirrored := by
  obtain ⟨stays, stays_iff, nodes⟩ := before.node?_release held
  have dependencies (id : NodeId) : (before.release held).controlDependencies id =
      if id ∈ before.survivors held then before.controlDependencies id else [] :=
    elim_pruned nodes (fun dependencies => dependencies) (fun _ => rfl) rfl id
  have dependents (id : NodeId) : (before.release held).controlDependents id =
      if id ∈ before.survivors held then (before.controlDependents id).filter stays else [] :=
    elim_pruned nodes (·.filter stays) (fun _ => rfl) rfl id
  refine ⟨fun dependent dependency => ?_, fun id => ?_, fun id => ?_, fun id => ?_⟩
  · rw [dependencies, dependents]
    have known := mirrored.mem_iff dependent dependency
    by_cases edge : dependency ∈ before.controlDependencies dependent
    · have listed := known.mp edge
      have kept := stays_iff dependent (alive_of_mem_controlDependencies edge)
      by_cases stay : dependent ∈ before.survivors held
      · have target := mem_survivors_of_dependency stay (mem_dependencies_of_control edge)
          (alive_of_mem_controlDependents listed)
        simp [stay, target, edge, listed, kept]
      · rw [if_neg stay]
        split <;> simp [stay, kept]
    · have unlisted := mt known.mpr edge
      split <;> split <;> simp [edge, unlisted]
  · rw [dependencies]
    split
    · exact mirrored.nodup_dependencies id
    · exact List.nodup_nil
  · rw [dependents]
    split
    · exact (mirrored.nodup_dependents id).filter _
    · exact List.nodup_nil
  · rw [dependencies]
    split
    · exact mirrored.apart id
    · exact List.not_mem_nil

theorem alive_dependency (mirrored : network.Mirrored) {dependent dependency : NodeId}
    (member : dependency ∈ network.controlDependencies dependent) : network.Alive dependency :=
  alive_of_mem_controlDependents ((mirrored.mem_iff dependent dependency).mp member)

theorem alive_dependent (mirrored : network.Mirrored) {dependent dependency : NodeId}
    (member : dependent ∈ network.controlDependents dependency) : network.Alive dependent :=
  alive_of_mem_controlDependencies ((mirrored.mem_iff dependent dependency).mpr member)

/-- No dependent is dead, so none is forgotten. -/
theorem controlDependents_of_prune (mirrored : network.Mirrored) {id : NodeId} {node : Node}
    (alive : network.node? id = some node) :
    node.controlDependents.filter network.nodes.contains = node.controlDependents := by
  have listed : network.controlDependents id = node.controlDependents := by
    rw [controlDependents, alive, Option.elim_some]
  refine List.filter_eq_self.mpr fun dependent member => ?_
  exact (contains_nodes network dependent).mpr (mirrored.alive_dependent (listed ▸ member))

theorem of_withdrawn (mirrored : network.Mirrored) (name : String) (operator : Operator)
    (sources : List OutputPort) : (network.withdrawn name operator sources).Mirrored := by
  refine mirrored.of_agree fun id => ?_
  rw [node?_withdrawn, Option.map_map]
  cases alive : network.node? id with
  | none => rfl
  | some node =>
      exact congrArg (fun dependents => some (node.controlDependencies, dependents))
        (mirrored.controlDependents_of_prune alive)

/-- Every move keeps the ends of control edges in agreement. -/
theorem of_move (move : Move before after) (mirrored : before.Mirrored) : after.Mirrored := by
  cases move with
  | rewired valid reads =>
      exact mirrored.of_agree (agree_rewire (fun _ _ _ => rfl) (fun _ _ => rfl) _ _ _ _)
  | rewiredAll alive valid =>
      exact mirrored.of_agree (agree_rewireAll (fun _ _ _ => rfl) (fun _ _ => rfl) _ _ _ _)
  | controlAdded distinct alive present new =>
      refine mirrored.of_addControl distinct ⟨_, alive⟩ present ?_
      rwa [controlDependencies, alive]
  | controlRemoved alive known => exact mirrored.of_removeControl _ _
  | @controlCleared dependent node alive =>
      have same : before.controlDependencies dependent = node.controlDependencies := by
        rw [controlDependencies, alive, Option.elim_some]
      exact same ▸ mirrored.of_clearControl dependent
  | touched => exact mirrored.of_agree (agree_touch _ _ _)
  | created sensible valid inferred => exact mirrored.of_addNode _ _ _ _
  | outputAdded valid inferred =>
      exact (mirrored.of_addNode _ _ _ _).of_nodes fun id => node?_touchBoundary _ _ _
  | withdrawn => exact mirrored.of_withdrawn _ _ _
  | inferred alive inferred => exact mirrored.of_agree (agree_modifyNode _ _ fun _ => rfl)
  | declared alive parameter => exact mirrored.of_agree (agree_modifyNode _ _ fun _ => rfl)
  | renamed => exact mirrored.of_agree (agree_modifyNode _ _ fun _ => rfl)
  | named valid free gives => exact mirrored.of_agree (agree_modifyNode _ _ fun _ => rfl)
  | rootsRecorded => exact mirrored.of_nodes fun _ => rfl
  | scheduled ordered => exact mirrored.of_agree (agree_storeSchedule _ _ _ fun _ _ => rfl)
  | boundaryAdded accepted => exact mirrored.of_nodes fun id => node?_touchBoundary _ _ _
  | boundaryRemoved present => exact mirrored.of_nodes fun id => node?_touchBoundary _ _ _
  | graphAdded parametersAccepted resultsAccepted sinksAccepted =>
      exact mirrored.of_nodes fun _ => rfl
  | graphRetired => exact mirrored.of_nodes fun _ => rfl
  | graphDropped => exact mirrored.of_agree (agree_dropGraph _ _ fun _ _ => rfl)
  | graphRenamed => exact mirrored.of_nodes fun _ => rfl
  | logged => exact mirrored.of_nodes fun _ => rfl
  | released => exact mirrored.of_release _

theorem of_moves (moves : Moves before after) (mirrored : before.Mirrored) : after.Mirrored :=
  moves.preserve (fun _ _ move mirrored => mirrored.of_move move) mirrored

end Mirrored

theorem mirrored_empty : Network.empty.Mirrored := by
  have noNode (id : NodeId) : Network.empty.node? id = none := by
    cases id <;> rfl
  have dependencies (id : NodeId) : Network.empty.controlDependencies id = [] := by
    rw [controlDependencies, noNode]
    rfl
  have dependents (id : NodeId) : Network.empty.controlDependents id = [] := by
    rw [controlDependents, noNode]
    rfl
  constructor <;> simp [dependencies, dependents]

end Network

namespace Session

open Network

variable {session : Session}

theorem Reachable.mirrored (reachable : session.Reachable) : session.network.Mirrored :=
  mirrored_empty.of_moves reachable.moves

/-- In every session that commands lead to, a node is ordered after another exactly if the
other lists it as a dependent, both of them live, each end lists the edge once, and no node is
ordered after itself.  Adding, removing and clearing control edges, putting any node into the
place of any other and releasing nodes preserve this wherever it holds. -/
theorem Reachable.control_edges_mirrored (reachable : session.Reachable) :
    (∀ dependent dependency,
      (dependency ∈ session.network.controlDependencies dependent ↔
        dependent ∈ session.network.controlDependents dependency) ∧
      (session.network.controlDependencies dependent).count dependency ≤ 1 ∧
      (session.network.controlDependents dependency).count dependent ≤ 1 ∧
      (dependency ∈ session.network.controlDependencies dependent →
        session.network.Alive dependent ∧ session.network.Alive dependency ∧
          dependent ≠ dependency)) ∧
    (∀ dependent dependency,
      (Edit.addControlDependency dependent dependency).Within (Preserves Mirrored) ∧
      (Edit.removeControlDependency dependent dependency).Within (Preserves Mirrored) ∧
      (Edit.clearControlDependencies dependent).Within (Preserves Mirrored)) ∧
    (∀ target replacement, (Edit.replaceNode target replacement).Within (Preserves Mirrored)) ∧
    ∀ network held, Preserves Mirrored network (network.release held) := by
  have mirrored := reachable.mirrored
  have kept (before after : Network) (move : Move before after) (holds : before.Mirrored) :
      after.Mirrored := holds.of_move move
  refine ⟨fun dependent dependency => ⟨mirrored.mem_iff dependent dependency, ?_, ?_, ?_⟩,
    fun dependent dependency => ⟨?_, ?_, ?_⟩, fun target replacement => ?_,
    fun network held holds => holds.of_release held⟩
  · exact List.nodup_iff_count_le_one.mp (mirrored.nodup_dependencies dependent) dependency
  · exact List.nodup_iff_count_le_one.mp (mirrored.nodup_dependents dependency) dependent
  · intro edge
    refine ⟨alive_of_mem_controlDependencies edge, mirrored.alive_dependency edge, ?_⟩
    rintro rfl
    exact mirrored.apart dependent edge
  · exact (Edit.follows_addControlDependency dependent dependency).preserves kept
  · exact (Edit.follows_removeControlDependency dependent dependency).preserves kept
  · exact (Edit.follows_clearControlDependencies dependent).preserves kept
  · exact (Edit.follows_replaceNode target replacement).preserves kept

/-- A rectifier was put into the place of one that it was ordered after; both were ordered
after a third one, and a fourth one, released since, was ordered after both. -/
def superseded : Session :=
  empty.run [
    .create (.parameter { elementType := .f32, shape := .fixed [2, 3] }) [] none (.text "feed"),
    .create .relu [⟨1, 0⟩] none (.text "target"),
    .create .relu [⟨1, 0⟩] none (.text "replacement"),
    .create .relu [⟨1, 0⟩] none (.text "earlier"),
    .create .relu [⟨1, 0⟩] none (.text "later"),
    .addControlDependency 3 2, .addControlDependency 3 4, .addControlDependency 2 4,
    .addControlDependency 5 3, .addControlDependency 5 2,
    .replaceNode 2 3,
    .dropNode "later"]

theorem superseded_reachable : superseded.Reachable :=
  ⟨_, rfl⟩

theorem lists_superseded :
    superseded.network.controlDependencies 3 = [2, 4] ∧
    superseded.network.controlDependents 2 = [3] ∧
    superseded.network.controlDependents 3 = [] := by
  cbv

theorem controls_superseded :
    superseded.network.controlDependencies 3 = [2, 4] ∧
    superseded.network.controlDependents 2 = [3] ∧
    superseded.network.controlDependents 3 = [] ∧
    3 ∈ superseded.network.controlDependents 4 ∧
    (((Edit.replaceNode 3 2).on superseded.network).2.release [2]).Mirrored := by
  obtain ⟨listed, dependents, none⟩ := lists_superseded
  obtain ⟨edges, -, replacing, releasing⟩ := superseded_reachable.control_edges_mirrored
  refine ⟨listed, dependents, none, (edges 3 4).1.mp ?_, ?_⟩
  · rw [listed]
    decide
  · exact releasing _ _ (replacing 3 2 _ superseded_reachable.mirrored)

end Session
end TensorGraph
