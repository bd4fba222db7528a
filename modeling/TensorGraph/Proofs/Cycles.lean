import Mathlib
import TensorGraph.Proofs.Liveness
import TensorGraph.Proofs.Superseding

/-!
# Cycles through a replacement

A node that takes the place of another one gains the users of the other as its own, and what
the other was ordered after as further dependencies.  Every edge that is new has the
replacement at one end, so a new cycle passes through the replacement; and one way round, it
leaves by an inherited dependency or comes back by an inherited user, but not both.
-/

namespace TensorGraph

open Relation

namespace Network

/-- The node reads the target or is ordered after it, as the target lists it. -/
def Uses (network : Network) (user target : NodeId) : Prop :=
  (∃ index, ∃ input ∈ network.consumers ⟨target, index⟩, input.node = user) ∨
    user ∈ network.controlDependents target

/-- The users that a node lists are the nodes that depend on it. -/
theorem Intact.uses_iff {network : Network} (intact : network.Intact) {user target : NodeId} :
    network.Uses user target ↔ network.DependsOn user target := by
  rw [Uses, dependsOn_iff, ← intact.mirrored.mem_iff]
  refine or_congr_left ⟨?_, ?_⟩
  · rintro ⟨index, input, member, rfl⟩
    exact ⟨input.index, ⟨target, index⟩, intact.linked.source?_iff.mpr member, rfl⟩
  · rintro ⟨index, port, reads, rfl⟩
    exact ⟨port.index, ⟨user, index⟩, intact.linked.source?_iff.mp reads, rfl⟩

/-- What depends on what once a node has taken the place of another one. -/
structure Displaced (before after : Network) (target replacement : NodeId) : Prop where
  others : ∀ id, id ≠ replacement → ∀ dependency, after.DependsOn id dependency ↔
    before.DependsOn id dependency ∧ dependency ≠ target ∨
      before.DependsOn id target ∧ dependency = replacement
  own : ∀ dependency, after.DependsOn replacement dependency ↔
    before.DependsOn replacement dependency ∨
      dependency ∈ before.controlDependencies target ∧ dependency ≠ replacement

namespace Displaced

variable {before after : Network} {target replacement : NodeId}
  (displaced : Displaced before after target replacement)

include displaced

section Survival

/-- Only edges to the target are lost. -/
theorem dependsOn_of_ne {id dependency : NodeId} (depends : before.DependsOn id dependency)
    (other : dependency ≠ target) : after.DependsOn id dependency := by
  by_cases isReplacement : id = replacement
  · rw [isReplacement] at depends ⊢
    exact (displaced.own dependency).mpr (Or.inl depends)
  · exact (displaced.others id isReplacement dependency).mpr (Or.inl ⟨depends, other⟩)

/-- A path that does not come to the target is still there. -/
theorem path_of_clear {first last : NodeId} (path : TransGen before.DependsOn first last)
    (clear : TransGen before.DependsOn first target →
      ¬ ReflTransGen before.DependsOn target last) : TransGen after.DependsOn first last := by
  induction path with
  | @single next depends =>
      refine .single (displaced.dependsOn_of_ne depends ?_)
      rintro rfl
      exact clear (.single depends) .refl
  | @tail between next path depends ih =>
      have rest := ih fun comes goes => clear comes (goes.tail depends)
      refine rest.tail (displaced.dependsOn_of_ne depends ?_)
      rintro rfl
      exact clear (path.tail depends) .refl

variable (acyclic : ∀ id, ¬ TransGen before.DependsOn id id)

include acyclic

/-- A user of the target that the replacement came after now comes after the replacement too. -/
theorem cycle_of_user {user : NodeId} (uses : before.DependsOn user target)
    (apart : user ≠ replacement) (path : TransGen before.DependsOn replacement user) :
    TransGen after.DependsOn replacement replacement := by
  have kept : TransGen after.DependsOn replacement user :=
    displaced.path_of_clear path fun _ goes => acyclic target (.tail' goes uses)
  exact kept.tail ((displaced.others user apart replacement).mpr (Or.inr ⟨uses, rfl⟩))

/-- A control dependency of the target that came after the replacement is inherited by it. -/
theorem cycle_of_dependency {dependency : NodeId}
    (inherited : dependency ∈ before.controlDependencies target) (apart : dependency ≠ replacement)
    (path : TransGen before.DependsOn dependency replacement) :
    TransGen after.DependsOn replacement replacement := by
  have kept : TransGen after.DependsOn dependency replacement :=
    displaced.path_of_clear path fun comes _ =>
      acyclic target (.head (mem_dependencies_of_control inherited) comes)
  exact kept.head ((displaced.own dependency).mpr (Or.inr ⟨inherited, apart⟩))

end Survival

section Closing

/-- A path that was not there passes through the replacement. -/
theorem path_cases {first last : NodeId} (path : TransGen after.DependsOn first last) :
    TransGen before.DependsOn first last ∨
      ReflTransGen after.DependsOn first replacement ∧
        ReflTransGen after.DependsOn replacement last := by
  induction path with
  | @single next depends =>
      by_cases isReplacement : first = replacement
      · subst isReplacement
        exact Or.inr ⟨.refl, .single depends⟩
      · rcases (displaced.others first isReplacement next).mp depends with ⟨old, -⟩ | ⟨-, rfl⟩
        · exact Or.inl (.single old)
        · exact Or.inr ⟨.single depends, .refl⟩
  | @tail between next path depends ih =>
      by_cases isReplacement : between = replacement
      · subst isReplacement
        exact Or.inr ⟨path.to_reflTransGen, .single depends⟩
      · rcases (displaced.others between isReplacement next).mp depends with ⟨old, -⟩ | ⟨-, rfl⟩
        · exact ih.imp (.tail · old) fun ⟨comes, goes⟩ => ⟨comes, goes.tail depends⟩
        · exact Or.inr ⟨path.to_reflTransGen.tail depends, .refl⟩

variable (acyclic : ∀ id, ¬ TransGen before.DependsOn id id)
  (noUser : ∀ user, before.DependsOn user target → user ≠ replacement →
    ¬ TransGen before.DependsOn replacement user)
  (noDependency : ∀ dependency ∈ before.controlDependencies target, dependency ≠ replacement →
    ¬ TransGen before.DependsOn dependency replacement)

include acyclic noUser noDependency

/-- What the replacement depends on now, it or an inherited dependency depended on before.  From
there no path comes back: neither to the replacement nor to a user of the target. -/
theorem path_from {last : NodeId} (path : TransGen after.DependsOn replacement last) :
    last ≠ replacement ∧ (TransGen before.DependsOn replacement last ∨
      ∃ dependency ∈ before.controlDependencies target, dependency ≠ replacement ∧
        ReflTransGen before.DependsOn dependency last) := by
  induction path with
  | @single next depends =>
      rcases (displaced.own next).mp depends with old | ⟨inherited, apart⟩
      · refine ⟨?_, Or.inl (.single old)⟩
        rintro rfl
        exact acyclic next (.single old)
      · exact ⟨apart, Or.inr ⟨next, inherited, apart, .refl⟩⟩
  | @tail between next path depends ih =>
      obtain ⟨apart, known⟩ := ih
      rcases (displaced.others between apart next).mp depends with ⟨old, -⟩ | ⟨uses, -⟩
      · rcases known with own | ⟨dependency, inherited, other, comes⟩
        · refine ⟨?_, Or.inl (own.tail old)⟩
          rintro rfl
          exact acyclic next (own.tail old)
        · refine ⟨?_, Or.inr ⟨dependency, inherited, other, comes.tail old⟩⟩
          rintro rfl
          exact noDependency dependency inherited other (.tail' comes old)
      · exfalso
        rcases known with own | ⟨dependency, inherited, -, comes⟩
        · exact noUser between uses apart own
        · have ordered : before.DependsOn target dependency :=
            mem_dependencies_of_control inherited
          exact acyclic target (.head ordered (.tail' comes uses))

theorem acyclic_after (id : NodeId) : ¬ TransGen after.DependsOn id id := by
  intro cycle
  rcases displaced.path_cases cycle with old | ⟨comes, goes⟩
  · exact acyclic id old
  · have round : TransGen after.DependsOn replacement replacement :=
      (TransGen.trans_right goes cycle).trans_left comes
    exact (displaced.path_from acyclic noUser noDependency round).1 rfl

end Closing

/-- A replacement closes a cycle exactly if it came after another user of the target, or if a
control dependency of the target came after it. -/
theorem cycle_iff (acyclic : ∀ id, ¬ TransGen before.DependsOn id id) :
    (∃ id, TransGen after.DependsOn id id) ↔
      (∃ user, before.DependsOn user target ∧ user ≠ replacement ∧
        TransGen before.DependsOn replacement user) ∨
      ∃ dependency ∈ before.controlDependencies target, dependency ≠ replacement ∧
        TransGen before.DependsOn dependency replacement := by
  constructor
  · contrapose!
    rintro ⟨noUser, noDependency⟩
    exact displaced.acyclic_after acyclic noUser noDependency
  · rintro (⟨user, uses, apart, path⟩ | ⟨dependency, inherited, apart, path⟩)
    · exact ⟨replacement, displaced.cycle_of_user acyclic uses apart path⟩
    · exact ⟨replacement, displaced.cycle_of_dependency acyclic inherited apart path⟩

/-- A node that depended on nothing but the target can take its place. -/
theorem acyclic_of_inserted (acyclic : ∀ id, ¬ TransGen before.DependsOn id id)
    (inserted : ∀ dependency, before.DependsOn replacement dependency ↔ dependency = target)
    (id : NodeId) : ¬ TransGen after.DependsOn id id := by
  have follows : before.DependsOn replacement target := (inserted target).mpr rfl
  refine displaced.acyclic_after acyclic (fun user uses _ path => ?_)
    (fun dependency inherited _ path => ?_) id
  · obtain ⟨first, depends, rest⟩ := TransGen.head'_iff.mp path
    rw [(inserted first).mp depends] at rest
    exact acyclic target (.tail' rest uses)
  · have ordered : before.DependsOn target dependency := mem_dependencies_of_control inherited
    exact acyclic target ((path.head ordered).tail follows)

end Displaced

theorem displaced_supersede {network : Network} {target replacement : NodeId}
    (intact : network.Intact) (different : target ≠ replacement)
    (present : network.Alive replacement)
    (counts : network.outputCount target = network.outputCount replacement) :
    Displaced network (network.supersede target replacement) target replacement where
  others _ := dependsOn_supersede_iff intact different present counts
  own := dependsOn_supersede_self_iff intact different present counts

/-- A replacement that is accepted. -/
theorem displaced_of_on_replaceNode {network after : Network} {target replacement : NodeId}
    (intact : network.Intact) (different : target ≠ replacement)
    (accepted : (Edit.replaceNode target replacement).on network = (.ok (), after)) :
    Displaced network after target replacement := by
  obtain ⟨⟨alive, present⟩, fits⟩ :=
    (Edit.replaceNode_ok_iff intact).mp (congrArg Prod.fst accepted)
  obtain ⟨noResult, counts⟩ := fits different
  rw [Edit.on_replaceNode intact alive present, if_neg different, if_neg (by simp [noResult]),
    if_pos counts] at accepted
  obtain ⟨-, rfl⟩ := Prod.mk.inj accepted
  exact displaced_supersede intact different present counts

end Network

namespace Session

open Network

variable {session : Session}

/-- Where no node depends on itself, putting a node into the place of another one makes a cycle
exactly if the replacement depended on a further user of the other node, or a further control
dependency of the other node depended on the replacement.  So a replacement that depends on the
other node alone, which comes in behind it, never makes one. -/
theorem Reachable.replacement_cycle_iff (reachable : session.Reachable)
    (acyclic : ∀ id, ¬ TransGen session.network.DependsOn id id) {target replacement : NodeId}
    (different : target ≠ replacement) {after : Network}
    (accepted : (Edit.replaceNode target replacement).on session.network = (.ok (), after)) :
    ((∃ id, TransGen after.DependsOn id id) ↔
      (∃ user, session.network.Uses user target ∧ user ≠ replacement ∧
        TransGen session.network.DependsOn replacement user) ∨
      ∃ dependency ∈ session.network.controlDependencies target, dependency ≠ replacement ∧
        TransGen session.network.DependsOn dependency replacement) ∧
    ((∀ dependency, session.network.DependsOn replacement dependency ↔ dependency = target) →
      ∀ id, ¬ TransGen after.DependsOn id id) := by
  have displaced := displaced_of_on_replaceNode reachable.intact different accepted
  simp only [reachable.intact.uses_iff]
  exact ⟨displaced.cycle_iff acyclic, displaced.acyclic_of_inserted acyclic⟩

/-- A rectifier that is ordered after a rectifier of an earlier one, and rectifiers that come
after it: one that reads it, one that reads that, and one that nothing reads. -/
def layered : Session :=
  empty.run [
    .create (.parameter { elementType := .f32, shape := .fixed [2, 3] }) [] none (.text "feed"),
    .create .relu [⟨1, 0⟩] none (.text "early"),
    .create .relu [⟨2, 0⟩] none (.text "before"),
    .create .relu [⟨1, 0⟩] none (.text "target"),
    .create .relu [⟨4, 0⟩] none (.text "user"),
    .create .relu [⟨5, 0⟩] none (.text "late"),
    .create .relu [⟨4, 0⟩] none (.text "inserted"),
    .addControlDependency 4 3]

theorem layered_reachable : layered.Reachable :=
  ⟨_, rfl⟩

theorem edges_layered :
    (layered.network.nodes.ids.all fun id => (layered.network.dependencies id).all (· < id)) ∧
    layered.network.consumers ⟨4, 0⟩ = [⟨5, 0⟩, ⟨7, 0⟩] ∧
    layered.network.controlDependencies 4 = [3] ∧
    [6, 3, 7].map layered.network.dependencies = [[5], [2], [4]] ∧
    [6, 2, 7].map (fun replacement => ((Edit.replaceNode 4 replacement).on layered.network).1) =
      [.ok (), .ok (), .ok ()] := by
  cbv

/-- Every node of the session was made after those that it depends on. -/
theorem acyclic_layered (id : NodeId) : ¬ TransGen layered.network.DependsOn id id :=
  acyclic_of_all_descending edges_layered.1 id

/-- Replacing the target by the late rectifier closes a cycle through the user, replacing it by
the early one closes a cycle through what the target is ordered after, and the rectifier that
reads the target alone closes none. -/
theorem cycles_layered :
    (∃ after, (Edit.replaceNode 4 6).on layered.network = (.ok (), after) ∧
      ∃ id, TransGen after.DependsOn id id) ∧
    (∃ after, (Edit.replaceNode 4 2).on layered.network = (.ok (), after) ∧
      ∃ id, TransGen after.DependsOn id id) ∧
    ∃ after, (Edit.replaceNode 4 7).on layered.network = (.ok (), after) ∧
      ∀ id, ¬ TransGen after.DependsOn id id := by
  have cycle {replacement : NodeId} (different : 4 ≠ replacement)
      (ok : ((Edit.replaceNode 4 replacement).on layered.network).1 = .ok ()) :=
    layered_reachable.replacement_cycle_iff acyclic_layered different (Edit.on_eq_of_ok ok)
  have edges := edges_layered
  simp only [List.map_cons, List.map_nil, List.cons.injEq, and_true] at edges
  obtain ⟨-, consumers, ordered, ⟨ofLate, ofBefore, ofInserted⟩, late, early, inserted⟩ := edges
  refine ⟨⟨_, Edit.on_eq_of_ok late, (cycle (by decide) late).1.mpr (Or.inl ?_)⟩,
    ⟨_, Edit.on_eq_of_ok early, (cycle (by decide) early).1.mpr (Or.inr ?_)⟩,
    ⟨_, Edit.on_eq_of_ok inserted, (cycle (by decide) inserted).2 fun dependency => ?_⟩⟩
  · refine ⟨5, Or.inl ⟨0, ⟨5, 0⟩, by simp [consumers], rfl⟩, by decide, .single ?_⟩
    rw [Network.DependsOn, ofLate, List.mem_singleton]
  · refine ⟨3, by simp [ordered], by decide, .single ?_⟩
    rw [Network.DependsOn, ofBefore, List.mem_singleton]
  · rw [Network.DependsOn, ofInserted, List.mem_singleton]

end Session
end TensorGraph
