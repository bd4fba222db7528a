import Mathlib
import TensorGraph.Proofs.Refinement
import TensorGraph.Proofs.RoundTrip

/-!
# Merging is intersection

A partial shape stands for the static shapes that match it, and is determined by them.
Merging two shapes intersects what they stand for, and is refused exactly where nothing
would be left.  The order in which shapes are merged, and how they are grouped on the way,
are therefore of no importance, whether the merging succeeds or not.
-/

namespace TensorGraph

/-- The dimension can be of the given size. -/
def Dim.Admits (dim : Dim) (size : Nat) : Prop :=
  ∀ known, dim = some known → size = known

theorem Dim.admits_getD (dim : Dim) : dim.Admits (dim.getD 0) := by
  rintro known rfl
  rfl

/-- A dimension refines another if it admits no other sizes. -/
theorem Dim.refines_of_admits {fine coarse : Dim}
    (admits : ∀ size, fine.Admits size → coarse.Admits size) : Dim.Refines fine coarse := by
  cases coarse with
  | none => exact .unknown fine
  | some known =>
      cases fine with
      | none => exact absurd (admits (known + 1) nofun known rfl) (Nat.succ_ne_self known)
      | some size => exact Or.inr (congrArg some (admits size (admits_getD _) known rfl))

namespace PartialShape

section Dims

variable {left right merged fine coarse : List Dim}

/-- The smallest sizes that dimensions can have. -/
theorem matchesDims_least (dims : List Dim) : MatchesDims (dims.map (·.getD 0)) dims := by
  induction dims with
  | nil => trivial
  | cons dim dims ih => exact ⟨dim.admits_getD, ih⟩

/-- Sizes match dimensions that they refine. -/
theorem matchesDims_iff_refinesDims {sizes : List Nat} {dims : List Dim} :
    MatchesDims sizes dims ↔ RefinesDims (sizes.map some) dims := by
  refine ⟨fun matched => ?_, fun refines => refines.matches (matchesDims_map_some sizes)⟩
  induction dims generalizing sizes with
  | nil =>
      cases sizes with
      | nil => trivial
      | cons _ _ => exact matched.elim
  | cons dim dims ih =>
      cases sizes with
      | nil => exact matched.elim
      | cons size sizes =>
          refine ⟨?_, ih matched.2⟩
          cases dim with
          | none => exact Or.inl rfl
          | some known => exact Or.inr (congrArg some (matched.1 known rfl))

theorem length_of_matchesDims {sizes : List Nat} {dims : List Dim}
    (matched : MatchesDims sizes dims) : sizes.length = dims.length := by
  simpa using (matchesDims_iff_refinesDims.mp matched).length_eq

theorem refinesDims_of_matches
    (all : ∀ sizes, MatchesDims sizes fine → MatchesDims sizes coarse) :
    RefinesDims fine coarse := by
  induction fine generalizing coarse with
  | nil =>
      cases coarse with
      | nil => trivial
      | cons _ _ => exact (all [] trivial).elim
  | cons dim fine ih =>
      cases coarse with
      | nil => exact (all _ (matchesDims_least (dim :: fine))).elim
      | cons other coarse =>
          refine ⟨Dim.refines_of_admits fun size admits => ?_, ih fun sizes matched => ?_⟩
          · exact (all (size :: _) ⟨admits, matchesDims_least fine⟩).1
          · exact (all (_ :: sizes) ⟨dim.admits_getD, matched⟩).2

theorem RefinesDims.antisymm (first : RefinesDims fine coarse)
    (second : RefinesDims coarse fine) : fine = coarse := by
  induction refinesDims_iff.mp first with
  | nil => rfl
  | cons here rest ih =>
      rw [ih (refinesDims_iff.mpr rest) second.2]
      rcases here with unknown | same
      · rcases second.1 with alsoUnknown | same
        · rw [unknown, alsoUnknown]
        · rw [same]
      · rw [same]

/-- A merged dimension admits what both dimensions admit. -/
theorem admits_mergeDim {first second dim : Dim} (merges : mergeDim first second = some dim)
    (size : Nat) : dim.Admits size ↔ first.Admits size ∧ second.Admits size := by
  have unknown : Dim.Admits none size := nofun
  cases first with
  | none =>
      obtain rfl : second = dim := Option.some.inj merges
      rw [and_iff_right unknown]
  | some known =>
      cases second with
      | none =>
          obtain rfl : some known = dim := Option.some.inj merges
          rw [and_iff_left unknown]
      | some other =>
          obtain ⟨rfl, rfl⟩ : known = other ∧ some known = dim := by
            simpa [mergeDim] using merges
          rw [and_self_iff]

/-- Two dimensions merge if some size is admitted by both. -/
theorem exists_mergeDim {first second : Dim} {size : Nat} (here : first.Admits size)
    (there : second.Admits size) : ∃ dim, mergeDim first second = some dim := by
  cases first with
  | none => exact ⟨second, rfl⟩
  | some known =>
      cases second with
      | none => exact ⟨some known, rfl⟩
      | some other =>
          have same : known = other := (here known rfl).symm.trans (there other rfl)
          exact ⟨some known, by rw [mergeDim, if_pos same]⟩

theorem mergeDim_isSome (first second : Dim) :
    (mergeDim first second).isSome = dimsCompatible first second := by
  cases first with
  | none => rfl
  | some known =>
      cases second with
      | none => rfl
      | some other => by_cases same : known = other <;> simp [mergeDim, dimsCompatible, same]

theorem mergeDim_mem {first second dim : Dim} (merges : mergeDim first second = some dim) :
    dim = first ∨ dim = second := by
  cases first with
  | none => exact Or.inr (Option.some.inj merges).symm
  | some known =>
      cases second with
      | none => exact Or.inl (Option.some.inj merges).symm
      | some other =>
          have both : known = other ∧ some known = dim := by simpa [mergeDim] using merges
          exact Or.inl both.2.symm

/-- What matches merged dimensions is what matches both rows. -/
theorem matchesDims_mergeDims (merges : mergeDims left right = some merged) (sizes : List Nat) :
    MatchesDims sizes merged ↔ MatchesDims sizes left ∧ MatchesDims sizes right := by
  induction left generalizing right merged sizes with
  | nil =>
      cases right with
      | nil =>
          obtain rfl : [] = merged := Option.some.inj merges
          rw [and_self_iff]
      | cons _ _ => cases merges
  | cons first left ih =>
      cases right with
      | nil => cases merges
      | cons second right =>
          obtain ⟨dim, rest, here, there, rfl⟩ := mergeDims_cons_eq_some.mp merges
          cases sizes with
          | nil => exact iff_of_false id fun both => both.1
          | cons size sizes =>
              change dim.Admits size ∧ MatchesDims sizes rest ↔
                (first.Admits size ∧ MatchesDims sizes left) ∧
                  second.Admits size ∧ MatchesDims sizes right
              rw [admits_mergeDim here, ih there, and_and_and_comm]

/-- Two rows of dimensions merge if some sizes match both. -/
theorem exists_mergeDims {sizes : List Nat} (here : MatchesDims sizes left)
    (there : MatchesDims sizes right) : ∃ merged, mergeDims left right = some merged := by
  induction left generalizing right sizes with
  | nil =>
      cases sizes with
      | nil =>
          cases right with
          | nil => exact ⟨[], rfl⟩
          | cons _ _ => exact there.elim
      | cons _ _ => exact here.elim
  | cons first left ih =>
      cases sizes with
      | nil => exact here.elim
      | cons size sizes =>
          cases right with
          | nil => exact there.elim
          | cons second right =>
              obtain ⟨dim, merges⟩ := exists_mergeDim here.1 there.1
              obtain ⟨rest, mergesRest⟩ := ih here.2 there.2
              exact ⟨dim :: rest, mergeDims_cons_eq_some.mpr ⟨dim, rest, merges, mergesRest, rfl⟩⟩

theorem mergeDims_isSome (left right : List Dim) :
    (mergeDims left right).isSome = (ranked left).isCompatible (ranked right) := by
  induction left generalizing right with
  | nil => cases right <;> rfl
  | cons first left ih =>
      cases right with
      | nil => rfl
      | cons second right =>
          have here := mergeDim_isSome first second
          have rest := ih right
          rw [isCompatible] at rest ⊢
          simp only [mergeDims, List.length_cons, Nat.add_right_cancel_iff, List.zip_cons_cons,
            List.all_cons, ← here, Bool.and_left_comm (decide _), ← rest]
          cases mergeDim first second <;> cases mergeDims left right <;> rfl

theorem mem_of_mergeDims (merges : mergeDims left right = some merged) :
    ∀ dim ∈ merged, dim ∈ left ∨ dim ∈ right := by
  induction left generalizing right merged with
  | nil =>
      cases right with
      | nil =>
          obtain rfl : [] = merged := Option.some.inj merges
          simp
      | cons _ _ => cases merges
  | cons first left ih =>
      cases right with
      | nil => cases merges
      | cons second right =>
          obtain ⟨dim, rest, here, there, rfl⟩ := mergeDims_cons_eq_some.mp merges
          intro other member
          rcases List.mem_cons.mp member with rfl | member
          · exact (mergeDim_mem here).imp (fun same => by simp [same]) fun same => by simp [same]
          · exact (ih there other member).imp (List.mem_cons_of_mem _) (List.mem_cons_of_mem _)

end Dims

section Shapes

variable {left right merged : PartialShape}

/-- The smallest sizes that match a shape. -/
def leastSizes : PartialShape → List Nat
  | unranked => []
  | ranked dims => dims.map (·.getD 0)

theorem matches_leastSizes (shape : PartialShape) : Matches shape.leastSizes shape := by
  cases shape with
  | unranked => trivial
  | ranked dims => exact matchesDims_least dims

theorem lt_of_mem_leastSizes {shape : PartialShape} (fits : shape.Fits) :
    ∀ size ∈ shape.leastSizes, size < wordLimit := by
  cases shape with
  | unranked => exact fun size member => absurd member List.not_mem_nil
  | ranked dims =>
      intro size member
      obtain ⟨dim, known, rfl⟩ := List.mem_map.mp member
      cases dim with
      | none => decide
      | some size => exact fits _ known size rfl

/-- One shape refines another if whatever matches the one matches the other. -/
theorem refines_iff_matches :
    left.Refines right ↔ ∀ sizes, Matches sizes left → Matches sizes right := by
  refine ⟨fun refines sizes matched => refines.matches matched, fun all => ?_⟩
  cases right with
  | unranked => exact refines_unranked left
  | ranked coarse =>
      cases left with
      | unranked =>
          have longer := length_of_matchesDims (all (List.replicate (coarse.length + 1) 0) trivial)
          simp at longer
      | ranked fine => exact refinesDims_of_matches all

theorem Refines.antisymm (first : left.Refines right) (second : right.Refines left) :
    left = right := by
  cases right with
  | unranked =>
      cases left with
      | unranked => rfl
      | ranked _ => exact second.elim
  | ranked coarse =>
      obtain ⟨fine, rfl, refines⟩ := first.exists_ranked
      exact congrArg ranked (refines.antisymm second)

/-- A shape is determined by the static shapes that match it. -/
theorem eq_of_matches_iff (same : ∀ sizes, Matches sizes left ↔ Matches sizes right) :
    left = right :=
  (refines_iff_matches.mpr fun sizes => (same sizes).mp).antisymm
    (refines_iff_matches.mpr fun sizes => (same sizes).mpr)

/-- What matches a merged shape is what matches both shapes. -/
theorem matches_merge (merges : left.merge right = some merged) (sizes : List Nat) :
    Matches sizes merged ↔ Matches sizes left ∧ Matches sizes right := by
  cases left with
  | unranked =>
      obtain rfl : right = merged := Option.some.inj merges
      exact (and_iff_right trivial).symm
  | ranked dims =>
      cases right with
      | unranked =>
          obtain rfl : ranked dims = merged := Option.some.inj merges
          exact (and_iff_left trivial).symm
      | ranked others =>
          obtain ⟨both, mergesDims, rfl⟩ := Option.map_eq_some_iff.mp merges
          exact matchesDims_mergeDims mergesDims sizes

/-- Two shapes merge if some sizes match both. -/
theorem exists_merge {sizes : List Nat} (here : Matches sizes left)
    (there : Matches sizes right) : ∃ merged, left.merge right = some merged := by
  cases left with
  | unranked => exact ⟨right, rfl⟩
  | ranked dims =>
      cases right with
      | unranked => exact ⟨ranked dims, rfl⟩
      | ranked others =>
          obtain ⟨both, merges⟩ := exists_mergeDims here there
          exact ⟨ranked both, by rw [merge, merges, Option.map_some]⟩

theorem merge_isSome (left right : PartialShape) :
    (left.merge right).isSome = left.isCompatible right := by
  cases left with
  | unranked => rfl
  | ranked dims =>
      cases right with
      | unranked => rfl
      | ranked others => rw [merge, Option.isSome_map, mergeDims_isSome]

theorem Fits.merge (here : left.Fits) (there : right.Fits)
    (merges : left.merge right = some merged) : merged.Fits := by
  cases left with
  | unranked =>
      obtain rfl : right = merged := Option.some.inj merges
      exact there
  | ranked dims =>
      cases right with
      | unranked =>
          obtain rfl : ranked dims = merged := Option.some.inj merges
          exact here
      | ranked others =>
          obtain ⟨both, mergesDims, rfl⟩ := Option.map_eq_some_iff.mp merges
          intro dim member
          exact (mem_of_mergeDims mergesDims dim member).elim (here dim) (there dim)

end Shapes

/-- An order and grouping in which shapes are merged. -/
inductive Grouping where
  | nothing
  | single (shape : PartialShape)
  | both (first second : Grouping)

namespace Grouping

/-- The shapes from left to right. -/
def shapes : Grouping → List PartialShape
  | nothing => []
  | single shape => [shape]
  | both first second => first.shapes ++ second.shapes

/-- The shapes merged group by group; no shapes leave everything open. -/
def merged : Grouping → Option PartialShape
  | nothing => some .unranked
  | single shape => some shape
  | both first second => do
      let left ← first.merged
      let right ← second.merged
      left.merge right

variable {grouping : Grouping}

/-- What matches merged shapes is what matches all of them. -/
theorem matches_merged {merged : PartialShape} (merges : grouping.merged = some merged)
    (sizes : List Nat) :
    Matches sizes merged ↔ ∀ shape ∈ grouping.shapes, Matches sizes shape := by
  induction grouping generalizing merged with
  | nothing =>
      obtain rfl : PartialShape.unranked = merged := Option.some.inj merges
      exact iff_of_true trivial fun shape member => absurd member List.not_mem_nil
  | single shape =>
      obtain rfl : shape = merged := Option.some.inj merges
      simp [shapes]
  | both first second ihFirst ihSecond =>
      obtain ⟨left, mergesLeft, mergesRest⟩ := Option.bind_eq_some_iff.mp merges
      obtain ⟨right, mergesRight, mergesBoth⟩ := Option.bind_eq_some_iff.mp mergesRest
      rw [matches_merge mergesBoth, ihFirst mergesLeft, ihSecond mergesRight, shapes,
        List.forall_mem_append]

/-- Shapes merge in any order and grouping if some sizes match all of them. -/
theorem exists_merged {sizes : List Nat}
    (matched : ∀ shape ∈ grouping.shapes, Matches sizes shape) :
    ∃ merged, grouping.merged = some merged := by
  induction grouping with
  | nothing => exact ⟨.unranked, rfl⟩
  | single shape => exact ⟨shape, rfl⟩
  | both first second ihFirst ihSecond =>
      obtain ⟨matchedFirst, matchedSecond⟩ := List.forall_mem_append.mp matched
      obtain ⟨left, mergesLeft⟩ := ihFirst matchedFirst
      obtain ⟨right, mergesRight⟩ := ihSecond matchedSecond
      obtain ⟨merged, merges⟩ := exists_merge ((matches_merged mergesLeft sizes).mpr matchedFirst)
        ((matches_merged mergesRight sizes).mpr matchedSecond)
      exact ⟨merged, by rw [Grouping.merged, mergesLeft, mergesRight]; exact merges⟩

theorem merged_eq_some_of_perm {other : Grouping} (permuted : grouping.shapes.Perm other.shapes)
    {merged : PartialShape} (merges : grouping.merged = some merged) :
    other.merged = some merged := by
  have matched := (matches_merged merges merged.leastSizes).mp merged.matches_leastSizes
  obtain ⟨result, mergesOther⟩ : ∃ result, other.merged = some result :=
    exists_merged fun shape member => matched shape (permuted.mem_iff.mpr member)
  rw [mergesOther, Option.some.injEq]
  refine eq_of_matches_iff fun sizes => ?_
  rw [matches_merged mergesOther, matches_merged merges]
  exact forall_congr' fun shape => by rw [permuted.mem_iff]

theorem merged_eq_of_perm {other : Grouping} (permuted : grouping.shapes.Perm other.shapes) :
    grouping.merged = other.merged :=
  Option.ext fun _ =>
    ⟨merged_eq_some_of_perm permuted, merged_eq_some_of_perm permuted.symm⟩

end Grouping

/-- Two shapes merge exactly if they are compatible, that is, if some static shape matches
both, one of machine words if the known sizes are; what matches the merged shape is what
matches both.  Any number of shapes merge to the same in every order and grouping, or in
none.  Compatibility is not transitive. -/
theorem merging_intersects :
    (∀ left right : PartialShape,
      ((left.merge right).isSome ↔ left.isCompatible right) ∧
      (left.isCompatible right ↔ ∃ sizes, Matches sizes left ∧ Matches sizes right) ∧
      (left.Fits → right.Fits → left.isCompatible right →
        ∃ sizes, (∀ size ∈ sizes, size < wordLimit) ∧ Matches sizes left ∧
          Matches sizes right) ∧
      ∀ merged, left.merge right = some merged →
        ∀ sizes, Matches sizes merged ↔ Matches sizes left ∧ Matches sizes right) ∧
    (∀ first second : Grouping, first.shapes.Perm second.shapes →
      first.merged = second.merged) ∧
    ∃ first second third : PartialShape, first.isCompatible second ∧
      second.isCompatible third ∧ ¬ first.isCompatible third := by
  refine ⟨fun left right => ?_, fun first second => Grouping.merged_eq_of_perm,
    .fixed [1], .unranked, .fixed [2], by decide, by decide, by decide⟩
  have merges_of_compatible (compatible : left.isCompatible right) :
      ∃ merged, left.merge right = some merged :=
    Option.isSome_iff_exists.mp (by rw [merge_isSome, compatible])
  refine ⟨by rw [merge_isSome], ⟨fun compatible => ?_, fun common => ?_⟩,
    fun here there compatible => ?_, fun merged => matches_merge⟩
  · obtain ⟨merged, merges⟩ := merges_of_compatible compatible
    exact ⟨merged.leastSizes, (matches_merge merges _).mp merged.matches_leastSizes⟩
  · obtain ⟨sizes, here, there⟩ := common
    obtain ⟨merged, merges⟩ := exists_merge here there
    rw [← merge_isSome, merges, Option.isSome_some]
  · obtain ⟨merged, merges⟩ := merges_of_compatible compatible
    exact ⟨merged.leastSizes, lt_of_mem_leastSizes (here.merge there merges),
      (matches_merge merges _).mp merged.matches_leastSizes⟩

/-- Two rows that complete each other, and three shapes of which two contradict each
other. -/
theorem merging_intersects_batch :
    (ranked [none, some 128]).Fits ∧ (ranked [some 32, none]).Fits ∧
      (ranked [none, some 128]).isCompatible (ranked [some 32, none]) ∧
      (ranked [none, some 128]).merge (ranked [some 32, none]) = some (fixed [32, 128]) ∧
      (∃ sizes, (∀ size ∈ sizes, size < wordLimit) ∧
        Matches sizes (ranked [none, some 128]) ∧ Matches sizes (ranked [some 32, none])) ∧
      (Matches [32, 128] (fixed [32, 128]) ↔
        Matches [32, 128] (ranked [none, some 128]) ∧
          Matches [32, 128] (ranked [some 32, none])) ∧
      (Grouping.both (.both (.single (fixed [1])) (.single .unranked))
        (.single (fixed [2]))).shapes.Perm
        (Grouping.both (.single (fixed [2]))
          (.both (.single (fixed [1])) (.single .unranked))).shapes ∧
      (Grouping.both (.both (.single (fixed [1])) (.single .unranked))
        (.single (fixed [2]))).merged =
        (Grouping.both (.single (fixed [2]))
          (.both (.single (fixed [1])) (.single .unranked))).merged := by
  obtain ⟨pairs, orders, -⟩ := merging_intersects
  obtain ⟨-, -, words, exact⟩ := pairs (ranked [none, some 128]) (ranked [some 32, none])
  have fits : (ranked [none, some 128]).Fits ∧ (ranked [some 32, none]).Fits := by decide
  have compatible : (ranked [none, some 128]).isCompatible (ranked [some 32, none]) := by decide
  have merges : (ranked [none, some 128]).merge (ranked [some 32, none]) =
      some (fixed [32, 128]) := by decide
  have permuted : (Grouping.both (.both (.single (fixed [1])) (.single .unranked))
      (.single (fixed [2]))).shapes.Perm
      (Grouping.both (.single (fixed [2]))
        (.both (.single (fixed [1])) (.single .unranked))).shapes := by decide
  exact ⟨fits.1, fits.2, compatible, merges, words fits.1 fits.2 compatible,
    exact _ merges [32, 128], permuted, orders _ _ permuted⟩

end PartialShape
end TensorGraph
