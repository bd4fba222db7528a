import Mathlib
import TensorGraph.Proofs.Conflicts
import TensorGraph.Proofs.Ordering
import TensorGraph.Proofs.Replacing
import TensorGraph.Proofs.Retention

/-!
# When a tensor may be named

Whether names can be given to a tensor is a matter of the graphs that have the owner of its
names in their schedule.  Each of them has to be fresh or to have roots that reach no cycle,
since otherwise its members are not known; and if the owner is within reach of it, then no other
tensor within reach may carry one of the names.  What was within reach when the schedule was
computed, and no longer is, plays no part.  A graph that was dropped has its say as well while a
handle holds what it shared with its nodes: it goes by those of its former members, or by what is
within reach of those of its former roots, that are still there.
-/

namespace TensorGraph

open Relation

namespace Network

variable {network : Network}

section Owners

/-- Following results from an output that exists ends at one that exists. -/
theorem Linked.lt_outputCount_ownerAmong (linked : network.Linked) (remaining : List NodeId)
    {port : OutputPort} (valid : port.index < network.outputCount port.node) :
    (network.ownerAmong remaining port).index <
      network.outputCount (network.ownerAmong remaining port).node := by
  fun_induction ownerAmong network remaining port with
  | case1 => exact valid
  | case2 remaining port source aliased member ih =>
      rw [aliased?] at aliased
      split at aliased
      · exact ih (linked.lt_outputCount aliased)
      · cases aliased
  | case3 => exact valid

theorem Linked.lt_outputCount_tensorOwner (linked : network.Linked) {port : OutputPort}
    (valid : port.index < network.outputCount port.node) :
    (network.tensorOwner port).index < network.outputCount (network.tensorOwner port).node := by
  rw [tensorOwner]
  split
  · exact linked.lt_outputCount_ownerAmong _ valid
  · exact valid

end Owners

/-- The names may be given to the owner: each graph with the owner in its schedule is fresh or
has no cycle within reach, and they are free in it if the owner is within reach. -/
def Nameable (network : Network) (owner : OutputPort) (names : List String) : Prop :=
  ∀ id graph, network.graph? id = some graph → owner.node ∈ graph.schedule →
    (graph.isFresh ∨ ∀ node, network.Reaches graph.currentRoots node →
      ¬ TransGen network.DependsOn node node) ∧
    (network.Reaches graph.currentRoots owner.node →
      network.Free graph.currentRoots owner names)

/-- What is left of dropped graphs allows the names: where the owner was a member, and its former
members are known, they are free among these; otherwise no cycle is within reach of the former
roots that are still there, and they are free within reach of these if the owner is. -/
def NameableInRemains (network : Network) (owner : OutputPort) (names : List String) : Prop :=
  ∀ id info, network.retained? id = some info → owner.node ∈ info.roster →
    if info.isFresh then network.FreeAmong info.roster owner names
    else
      (∀ node, network.Reaches (network.living info.roots) node →
        ¬ TransGen network.DependsOn node node) ∧
      (network.Reaches (network.living info.roots) owner.node →
        network.Free (network.living info.roots) owner names)

theorem nameableInRemains_of_nothing {owner : OutputPort} {names : List String}
    (nothing : ∀ id, network.retained? id = none) : network.NameableInRemains owner names := by
  intro id info remains
  cases (nothing id).symm.trans remains

section Checks

variable {id : GraphId} {graph : Graph} {info : GraphInfo} {owner : OutputPort} {names : NameSet}

/-- No cycle is within reach of a fresh graph. -/
theorem Coherent.acyclic_iff (coherent : network.Coherent)
    (found : network.graph? id = some graph) :
    (∀ node, network.Reaches graph.currentRoots node →
        ¬ TransGen network.DependsOn node node) ↔
      graph.isFresh ∨ ∀ node, network.Reaches graph.currentRoots node →
        ¬ TransGen network.DependsOn node node := by
  refine ⟨Or.inr, fun known => known.elim (fun isFresh node reached => ?_) fun acyclic => acyclic⟩
  have ordered := coherent.ordered_schedule found isFresh
  exact ordered.acyclic node ((ordered.mem_iff node).mpr reached)

theorem Coherent.checkNamesWithin_eq_ok_iff_of_retained (coherent : network.Coherent)
    (remains : network.retained? id = some info) (alive : network.Alive owner.node)
    (known : owner.node ∈ info.roster) :
    network.checkNamesWithin owner names id = .ok () ↔
      if info.isFresh then network.FreeAmong info.roster owner names
      else
        (∀ node, network.Reaches (network.living info.roots) node →
          ¬ TransGen network.DependsOn node node) ∧
        (network.Reaches (network.living info.roots) owner.node →
          network.Free (network.living info.roots) owner names) := by
  have same : network.info id = info := info_of_retained? remains
  split
  next isFresh =>
    have members : network.members (network.info id) = .ok (network.living info.roster) := by
      rw [same, Network.members, if_pos isFresh]
    rw [Network.checkNamesWithin_eq_ok_iff members, freeAmong_living,
      forall_prop_of_true (mem_living.mpr ⟨known, alive⟩)]
  next isStale =>
    refine checkNamesWithin_eq_ok_iff_of_roots coherent.dependencies
      (fun root member => (mem_living.mp member).2) ?_
    rw [same, Network.members, if_neg isStale]

theorem Coherent.checkNames_eq_ok_iff (coherent : network.Coherent) (recorded : network.Recorded)
    (alive : network.Alive owner.node) :
    network.checkNames owner names = .ok () ↔
      names = [] ∨ network.Nameable owner names ∧ network.NameableInRemains owner names := by
  have knows_iff := (coherent.memberships owner.node alive).2
  rw [checkNames]
  split
  next noNames => exact iff_of_true rfl (Or.inl noNames)
  next someNames =>
    rw [forM_eq_ok_iff, or_iff_right someNames]
    constructor
    · intro accepted
      refine ⟨fun id graph found known => ?_, fun id info remains known => ?_⟩
      · rw [← coherent.acyclic_iff found]
        exact (coherent.checkNamesWithin_eq_ok_iff recorded found).mp
          (accepted id ((coherent.knows_iff found).mpr known))
      · rw [← coherent.checkNamesWithin_eq_ok_iff_of_retained remains alive known]
        exact accepted id ((knows_iff id).mpr (by rwa [info_of_retained? remains]))
    · rintro ⟨nameable, inRemains⟩ id knows
      rcases exists_of_mem_roster ((knows_iff id).mp knows) with ⟨graph, found⟩ | ⟨info, remains⟩
      · have allowed := nameable id graph found ((coherent.knows_iff found).mp knows)
        rw [← coherent.acyclic_iff found] at allowed
        exact (coherent.checkNamesWithin_eq_ok_iff recorded found).mpr allowed
      · have known : owner.node ∈ info.roster := by
          rw [← info_of_retained? remains]
          exact (knows_iff id).mp knows
        exact (coherent.checkNamesWithin_eq_ok_iff_of_retained remains alive known).mpr
          (inRemains id info remains known)

/-- Which names are given matters, but not how often or in which order. -/
theorem nameable_congr {owner : OutputPort} {names others : List String}
    (same : ∀ name, name ∈ names ↔ name ∈ others) :
    (network.Nameable owner names ↔ network.Nameable owner others) ∧
      (network.NameableInRemains owner names ↔ network.NameableInRemains owner others) := by
  constructor
  · simp only [Nameable, Free, same]
  · simp only [NameableInRemains, FreeAmong, Free, same]

end Checks

/-- Nothing has changed but the names of one output. -/
structure Renamed (before after : Network) (owner : OutputPort) : Prop where
  nodes : Agree Node.nameless before after
  others : ∀ other, other ≠ owner → after.ownNames other = before.ownNames other
  next : after.nodes.nextId = before.nodes.nextId
  graphs : after.graphs = before.graphs
  events : after.events = before.events

theorem renamed_spec (owner : OutputPort) (update : NameSet → NameSet) :
    Renamed network (network.renamed owner update) owner where
  nodes := network.agree_renamed owner update
  others _ different := network.ownNames_renamed_of_ne owner update different
  next := network.nodes.nextId_modify owner.node _
  graphs := rfl
  events := rfl

theorem ownNames_renamed_self {owner : OutputPort}
    (valid : owner.index < network.outputCount owner.node) (update : NameSet → NameSet) :
    (network.renamed owner update).ownNames owner = update (network.ownNames owner) := by
  obtain ⟨tensor, found⟩ := exists_tensor_of_lt_outputCount valid
  rw [ownNames, renamed, tensor?_modifyTensor, if_pos rfl, ownNames, found]
  rfl

end Network

theorem NameSet.ofList_eq_nil_iff {names : List String} : ofList names = [] ↔ names = [] := by
  simp only [List.eq_nil_iff_forall_not_mem, mem_ofList]

namespace Edit

variable {network : Network}

/-- The names of a tensor are updated if the given ones pass the check. -/
theorem on_updateNames {port : OutputPort} (valid : port.index < network.outputCount port.node)
    (given : NameSet) (update : NameSet → NameSet) :
    (updateNames port given update).on network =
      match network.checkNames (network.tensorOwner port) given with
      | .ok _ => (.ok (), network.renamed (network.tensorOwner port) update)
      | .error error => (.error error, network) := by
  rw [updateNames, on_bind, on_checkPort, if_pos valid]
  dsimp only
  rw [on_bind, on_get]
  dsimp only
  rw [on_bind, on_ask]
  cases network.checkNames (network.tensorOwner port) given <;> rfl

end Edit

namespace Session

open Network

variable {session : Session}

theorem Reachable.updateNames_ok_iff (reachable : session.Reachable) {port : OutputPort}
    (valid : port.index < session.network.outputCount port.node) (names : List String)
    (update : NameSet → NameSet) :
    ((Edit.updateNames port (.ofList names) update).on session.network).1 = .ok () ↔
      names = [] ∨ session.network.Nameable (session.network.tensorOwner port) names ∧
        session.network.NameableInRemains (session.network.tensorOwner port) names := by
  have alive : session.network.Alive (session.network.tensorOwner port).node :=
    alive_of_lt_outputCount (reachable.intact.linked.lt_outputCount_tensorOwner valid)
  have checked : session.network.checkNames (session.network.tensorOwner port) (.ofList names) =
      .ok () ↔ _ := reachable.coherent.checkNames_eq_ok_iff reachable.recorded alive
  have given : ∀ name, name ∈ NameSet.ofList names ↔ name ∈ names := fun _ => NameSet.mem_ofList
  rw [NameSet.ofList_eq_nil_iff, (nameable_congr given).1, (nameable_congr given).2] at checked
  rw [Edit.on_updateNames valid, ← checked]
  cases session.network.checkNames (session.network.tensorOwner port) (.ofList names) <;> simp

/-- A result of a graph that was made to read another rectifier since the schedule of the graph
was computed; both rectifiers are named. -/
def departed : Session :=
  empty.run [
    .create (.parameter { elementType := .f32, shape := .fixed [2, 3] }) [] none (.text "feed"),
    .create .relu [⟨1, 0⟩] none (.text "former"),
    .create .relu [⟨1, 0⟩] none (.text "latter"),
    .create .result [⟨2, 0⟩] none (.text "outcome"),
    .createGraph [4] [1] [] .absent (.text "graph"),
    .setNames ⟨2, 0⟩ ["gone"],
    .setSource ⟨4, 0⟩ ⟨3, 0⟩,
    .setNames ⟨3, 0⟩ ["there"]]

theorem departed_reachable : departed.Reachable :=
  ⟨_, rfl⟩

theorem names_departed :
    departed.infos.values = [] ∧
    departed.network.tensorOwner ⟨1, 0⟩ = ⟨1, 0⟩ ∧
    departed.network.ownNames ⟨2, 0⟩ = ["gone"] ∧
    (⟨1, 0⟩ : OutputPort).index < departed.network.outputCount 1 ∧
    ((Edit.setNames ⟨1, 0⟩ ["gone"]).on departed.network).1 = .ok () ∧
    ((Edit.setNames ⟨1, 0⟩ ["there"]).on departed.network).1.toOption = none := by
  cbv

/-- A graph of another rectifier beside it, which is named; the graph was dropped, but what it
shared with its nodes is still held. -/
def lingering : Session :=
  departed.run [
    .create .relu [⟨1, 0⟩] none (.text "aside"),
    .create .result [⟨5, 0⟩] none (.text "end"),
    .createGraph [6] [1] [] .absent (.text "brief"),
    .setNames ⟨5, 0⟩ ["kept"],
    .holdInfo "brief" (.text "remains"),
    .dropGraph "brief"]

theorem lingering_reachable : lingering.Reachable :=
  departed_reachable.run _

theorem names_lingering :
    lingering.network.tensorOwner ⟨1, 0⟩ = ⟨1, 0⟩ ∧
    lingering.network.retained? 2 =
      some { isFresh := true, roster := [1, 5, 6], roots := [6, 1] } ∧
    (⟨1, 0⟩ : OutputPort).index < lingering.network.outputCount 1 ∧
    ((Edit.setNames ⟨1, 0⟩ ["kept"]).on lingering.network).1 =
      .error (.nameConflict (.taken "kept" ⟨⟨5, "Relu_5", "Relu"⟩, .output, 0⟩)) ∧
    ((Edit.setNames ⟨1, 0⟩ ["free"]).on lingering.network).1 = .ok () ∧
    lingering.network.isResult 5 = false ∧
    lingering.network.ownNames ⟨5, 0⟩ = ["kept"] := by
  cbv
  exact ⟨rfl, trivial⟩

end Session
end TensorGraph
