import Mathlib.Data.List.Forall2
import TensorGraph.Operator.Inference
import TensorGraph.Proofs.Frames
import TensorGraph.Shape.Matching

/-!
# Inference and refinement

Where an operator infers types from what is known of its inputs, it also does so from
anything that fixes less, and what it then infers fixes no more.  The rules for shapes
are followed one by one: merging, adding up sizes along an axis, and the entries of a
reshape pattern.
-/

namespace TensorGraph

/-- `finer` is the size that `coarser` gives, if it gives one. -/
def Dim.Refines (finer coarser : Dim) : Prop :=
  coarser = none ∨ finer = coarser

theorem Dim.Refines.refl (dim : Dim) : Dim.Refines dim dim :=
  Or.inr rfl

theorem Dim.Refines.trans {fine middle coarse : Dim} (first : Dim.Refines fine middle)
    (second : Dim.Refines middle coarse) : Dim.Refines fine coarse := by
  rcases second with unknown | same
  · exact Or.inl unknown
  · exact same ▸ first

theorem Dim.Refines.unknown (dim : Dim) : Dim.Refines dim none :=
  Or.inl rfl

theorem ElementType.Refines.refl (elementType : ElementType) : elementType.Refines elementType :=
  Or.inr rfl

theorem ElementType.refines_dynamic (elementType : ElementType) : elementType.Refines .dynamic :=
  Or.inl rfl

/-- What merging gives is finer than both element types. -/
theorem ElementType.merge_refines {left right merged : ElementType}
    (merges : left.merge right = some merged) : merged.Refines left ∧ merged.Refines right := by
  cases left <;> cases right <;> cases merges <;> exact ⟨by simp [Refines], by simp [Refines]⟩

/-- Merging finer element types gives one that is finer than what merging the coarser
ones gives. -/
theorem ElementType.merge_mono {fine coarse otherFine otherCoarse merged : ElementType}
    (first : fine.Refines coarse) (second : otherFine.Refines otherCoarse)
    (merges : fine.merge otherFine = some merged) :
    ∃ coarser, coarse.merge otherCoarse = some coarser ∧ merged.Refines coarser := by
  rcases first with rfl | rfl <;> rcases second with rfl | rfl
  · exact ⟨.dynamic, rfl, refines_dynamic merged⟩
  · exact ⟨otherFine, rfl, (merge_refines merges).2⟩
  · exact ⟨fine, by cases fine <;> rfl, (merge_refines merges).1⟩
  · exact ⟨merged, merges, .refl merged⟩

namespace PartialShape

section Dims

variable {fine coarse otherFine otherCoarse dims : List Dim}

theorem refinesDims_iff : RefinesDims fine coarse ↔ List.Forall₂ Dim.Refines fine coarse := by
  induction fine generalizing coarse with
  | nil => cases coarse <;> simp [RefinesDims]
  | cons dim fine ih =>
      cases coarse with
      | nil => simp [RefinesDims]
      | cons other coarse => rw [RefinesDims, ih, List.forall₂_cons, Dim.Refines]

theorem RefinesDims.refl (dims : List Dim) : RefinesDims dims dims :=
  refinesDims_iff.mpr (List.forall₂_same.mpr fun dim _ => Dim.Refines.refl dim)

theorem RefinesDims.length_eq (refines : RefinesDims fine coarse) : fine.length = coarse.length :=
  (refinesDims_iff.mp refines).length_eq

theorem RefinesDims.trans {middle : List Dim} (first : RefinesDims fine middle)
    (second : RefinesDims middle coarse) : RefinesDims fine coarse := by
  induction refinesDims_iff.mp first generalizing coarse with
  | nil => exact second
  | cons here rest ih =>
      cases coarse with
      | nil => exact second.elim
      | cons other coarse =>
          exact ⟨here.trans second.1, ih (refinesDims_iff.mpr rest) second.2⟩

theorem RefinesDims.getElem? (refines : RefinesDims fine coarse) (index : Nat) :
    Dim.Refines (fine[index]?).join (coarse[index]?).join := by
  induction refinesDims_iff.mp refines generalizing index with
  | nil => exact .refl _
  | cons here rest ih =>
      cases index with
      | zero => exact here
      | succ index => exact ih (refinesDims_iff.mpr rest) index

theorem RefinesDims.set (refines : RefinesDims fine coarse) (index : Nat) {finer coarser : Dim}
    (here : Dim.Refines finer coarser) :
    RefinesDims (fine.set index finer) (coarse.set index coarser) := by
  induction refinesDims_iff.mp refines generalizing index with
  | nil => trivial
  | cons first rest ih =>
      cases index with
      | zero => exact ⟨here, refinesDims_iff.mpr rest⟩
      | succ index => exact ⟨first, ih (refinesDims_iff.mpr rest) index⟩

/-- Only sizes refine sizes that are all known. -/
theorem RefinesDims.eq_of_known (refines : RefinesDims fine coarse)
    (known : ∀ dim ∈ coarse, dim ≠ none) : fine = coarse := by
  induction refinesDims_iff.mp refines with
  | nil => rfl
  | cons here rest ih =>
      obtain ⟨first, others⟩ := List.forall_mem_cons.mp known
      rw [here.resolve_left first, ih (refinesDims_iff.mpr rest) others]

theorem mergeDim_refines {left right dim : Dim} (merges : mergeDim left right = some dim) :
    Dim.Refines dim left ∧ Dim.Refines dim right := by
  cases left with
  | none => exact ⟨.unknown dim, Or.inr (Option.some.inj merges).symm⟩
  | some size =>
      cases right with
      | none => exact ⟨Or.inr (Option.some.inj merges).symm, .unknown dim⟩
      | some other =>
          rw [mergeDim] at merges
          split at merges
          next same =>
            obtain rfl := Option.some.inj merges
            exact ⟨.refl _, Or.inr (congrArg some same)⟩
          · cases merges

theorem mergeDim_mono {finer coarser otherFiner otherCoarser dim : Dim}
    (first : Dim.Refines finer coarser) (second : Dim.Refines otherFiner otherCoarser)
    (merges : mergeDim finer otherFiner = some dim) :
    ∃ other, mergeDim coarser otherCoarser = some other ∧ Dim.Refines dim other := by
  rcases first with rfl | rfl <;> rcases second with rfl | rfl
  · exact ⟨none, rfl, .unknown dim⟩
  · exact ⟨otherFiner, rfl, (mergeDim_refines merges).2⟩
  · exact ⟨finer, by cases finer <;> rfl, (mergeDim_refines merges).1⟩
  · exact ⟨dim, merges, .refl dim⟩

theorem mergeDims_cons_eq_some {dim other : Dim} {dims others merged : List Dim} :
    mergeDims (dim :: dims) (other :: others) = some merged ↔
      ∃ first rest, mergeDim dim other = some first ∧ mergeDims dims others = some rest ∧
        merged = first :: rest := by
  simp only [mergeDims, Option.bind_eq_bind, Option.bind_eq_some_iff, Option.pure_def,
    Option.some.injEq]
  constructor
  · rintro ⟨first, here, rest, there, rfl⟩
    exact ⟨first, rest, here, there, rfl⟩
  · rintro ⟨first, rest, here, there, rfl⟩
    exact ⟨first, here, rest, there, rfl⟩

/-- Merging finer dimensions gives some that are finer than what merging the coarser ones
gives. -/
theorem mergeDims_mono (first : RefinesDims fine coarse)
    (second : RefinesDims otherFine otherCoarse) (merges : mergeDims fine otherFine = some dims) :
    ∃ others, mergeDims coarse otherCoarse = some others ∧ RefinesDims dims others := by
  induction refinesDims_iff.mp first generalizing otherFine otherCoarse dims with
  | nil =>
      cases refinesDims_iff.mp second with
      | nil => exact ⟨dims, merges, .refl dims⟩
      | cons _ _ => cases merges
  | cons here rest ih =>
      cases refinesDims_iff.mp second with
      | nil => cases merges
      | cons otherHere otherRest =>
          obtain ⟨head, tail, mergesHere, mergesRest, rfl⟩ := mergeDims_cons_eq_some.mp merges
          obtain ⟨coarser, merged, refines⟩ := mergeDim_mono here otherHere mergesHere
          obtain ⟨others, mergedRest, refinesRest⟩ :=
            ih (refinesDims_iff.mpr rest) (refinesDims_iff.mpr otherRest) mergesRest
          exact ⟨coarser :: others, mergeDims_cons_eq_some.mpr
            ⟨coarser, others, merged, mergedRest, rfl⟩, refines, refinesRest⟩

/-- What merging gives is finer than both rows of dimensions. -/
theorem mergeDims_refines (merges : mergeDims fine otherFine = some dims) :
    RefinesDims dims fine ∧ RefinesDims dims otherFine := by
  induction fine generalizing otherFine dims with
  | nil =>
      cases otherFine with
      | nil =>
          cases merges
          exact ⟨trivial, trivial⟩
      | cons _ _ => cases merges
  | cons dim fine ih =>
      cases otherFine with
      | nil => cases merges
      | cons other otherFine =>
          obtain ⟨head, tail, mergesHere, mergesRest, rfl⟩ := mergeDims_cons_eq_some.mp merges
          obtain ⟨first, second⟩ := mergeDim_refines mergesHere
          obtain ⟨restFirst, restSecond⟩ := ih mergesRest
          exact ⟨⟨first, restFirst⟩, second, restSecond⟩

end Dims

section Shapes

variable {fine coarse : PartialShape}

theorem Refines.refl (shape : PartialShape) : shape.Refines shape := by
  cases shape with
  | unranked => trivial
  | ranked dims => exact RefinesDims.refl dims

theorem refines_unranked (shape : PartialShape) : shape.Refines unranked := by
  cases shape <;> trivial

theorem Refines.exists_ranked {dims : List Dim} (refines : fine.Refines (ranked dims)) :
    ∃ others, fine = ranked others ∧ RefinesDims others dims := by
  cases fine with
  | unranked => exact refines.elim
  | ranked others => exact ⟨others, rfl, refines⟩

theorem Refines.rank? (refines : fine.Refines coarse) :
    Dim.Refines fine.rank? coarse.rank? := by
  cases coarse with
  | unranked => exact Or.inl rfl
  | ranked dims =>
      obtain ⟨others, rfl, refines⟩ := refines.exists_ranked
      exact Or.inr (congrArg some refines.length_eq)

theorem Refines.dim (refines : fine.Refines coarse) (index : Nat) :
    Dim.Refines (fine.dim index) (coarse.dim index) := by
  cases coarse with
  | unranked => exact Or.inl rfl
  | ranked dims =>
      obtain ⟨others, rfl, refines⟩ := refines.exists_ranked
      exact refines.getElem? index

theorem eq_map_some_of_mapM {dims : List Dim} {sizes : List Nat}
    (known : dims.mapM id = some sizes) : dims = sizes.map some := by
  induction dims generalizing sizes with
  | nil =>
      obtain rfl := Option.some.inj known
      rfl
  | cons dim dims ih =>
      simp only [List.mapM_cons, id, Option.bind_eq_bind, Option.bind_eq_some_iff, Option.pure_def,
        Option.some.injEq] at known
      obtain ⟨size, rfl, rest, knownRest, rfl⟩ := known
      rw [ih knownRest, List.map_cons]

/-- Where the number of elements of a shape is determined, only the shape itself refines
it. -/
theorem Refines.eq_or_unknown (refines : fine.Refines coarse) :
    fine = coarse ∨ coarse.elementCount = .unknown := by
  cases coarse with
  | unranked => exact Or.inr rfl
  | ranked dims =>
      cases known : (ranked dims).sizes? with
      | none => exact Or.inr (by rw [elementCount, known])
      | some sizes =>
          obtain ⟨others, rfl, refines⟩ := refines.exists_ranked
          have allKnown : ∀ dim ∈ dims, dim ≠ none := by
            simp [eq_map_some_of_mapM known]
          exact Or.inl (congrArg ranked (refines.eq_of_known allKnown))

end Shapes

end PartialShape

theorem TensorType.Refines.refl (type : TensorType) : type.Refines type :=
  ⟨.refl _, .refl _⟩

theorem TensorType.refines_self (types : List TensorType) :
    List.Forall₂ TensorType.Refines types types :=
  List.forall₂_same.mpr fun type _ => .refl type

namespace Concat

variable {axis : Int}

theorem lt_of_normalizeAxis {rank position : Nat} (ok : normalizeAxis axis rank = .ok position) :
    position < rank := by
  rw [normalizeAxis] at ok
  generalize (if axis < 0 then axis + rank else axis) = place at ok
  split at ok
  · cases ok
  · obtain rfl := Except.ok.inj ok
    omega

theorem mergeElementTypes_mono {fine coarse : List TensorType}
    (refines : List.Forall₂ TensorType.Refines fine coarse) {finer coarser merged : ElementType}
    (before : finer.Refines coarser) (ok : mergeElementTypes finer fine = .ok merged) :
    ∃ other, mergeElementTypes coarser coarse = .ok other ∧ merged.Refines other := by
  induction refines generalizing finer coarser with
  | nil =>
      cases ok
      exact ⟨coarser, rfl, before⟩
  | cons here rest ih =>
      rw [mergeElementTypes] at ok ⊢
      split at ok
      · cases ok
      next next merges =>
        obtain ⟨other, also, refines⟩ := ElementType.merge_mono before here.1 merges
        rw [also]
        exact ih refines ok

theorem addDims_mono {fine coarse otherFine otherCoarse : Dim} (first : Dim.Refines fine coarse)
    (second : Dim.Refines otherFine otherCoarse) :
    Dim.Refines (addDims fine otherFine) (addDims coarse otherCoarse) := by
  rcases first with rfl | rfl <;> rcases second with rfl | rfl
  · exact Or.inl rfl
  · exact Or.inl (by cases otherFine <;> rfl)
  · exact Or.inl (by cases fine <;> rfl)
  · exact .refl _

/-- What is joined of finer inputs, the axis being that of the frame, and of coarser
ones. -/
structure Joined.Refines (axis : Int) (finer coarser : Joined) : Prop where
  placed : ∀ position dims, finer.frame = some (position, dims) →
    normalizeAxis axis dims.length = .ok position
  total : Dim.Refines finer.total coarser.total
  frame : ∀ position dims, coarser.frame = some (position, dims) →
    ∃ others, finer.frame = some (position, others) ∧ PartialShape.RefinesDims others dims

theorem Joined.refines_none : Joined.Refines axis Joined.none Joined.none :=
  ⟨by simp [Joined.none], .refl _, by simp [Joined.none]⟩

/-- The dimensions of an input open a frame or merge into the one that there is. -/
inductive Joined.Takes (joined : Joined) (position : Nat) (dims : List Dim) : List Dim → Prop where
  | opens (first : joined.frame = .none) : joined.Takes position dims (dims.set position .none)
  | merges {frame merged : List Dim} (known : joined.frame = some (position, frame))
      (merges : PartialShape.mergeDims frame (dims.set position .none) = some merged) :
      joined.Takes position dims merged

theorem Joined.add_of_takes {joined : Joined} {position : Nat} {dims merged : List Dim}
    (normal : normalizeAxis axis dims.length = .ok position)
    (takes : joined.Takes position dims merged) :
    joined.add axis (.ranked dims) =
      .ok { frame := some (position, merged),
            total := addDims joined.total (dims[position]?).join } := by
  have below : ¬ dims.length ≤ position := Nat.not_le.mpr (lt_of_normalizeAxis normal)
  cases takes with
  | opens first =>
      simp only [Joined.add, first, normal, bind, Except.bind, pure, Except.pure, below, if_false]
  | merges known merges =>
      simp only [Joined.add, known, merges, bind, Except.bind, pure, Except.pure, below, if_false]

theorem Joined.exists_takes {joined after : Joined} {dims : List Dim}
    (placed : ∀ position frame, joined.frame = some (position, frame) →
      normalizeAxis axis frame.length = .ok position)
    (ok : joined.add axis (.ranked dims) = .ok after) :
    ∃ position merged, normalizeAxis axis dims.length = .ok position ∧
      joined.Takes position dims merged ∧
      after = { frame := some (position, merged),
                total := addDims joined.total (dims[position]?).join } := by
  cases known : joined.frame with
  | none =>
      simp only [Joined.add, known, bind, Except.bind, pure, Except.pure] at ok
      split at ok
      · cases ok
      next position normal =>
        split at ok
        · cases ok
        · obtain rfl := Except.ok.inj ok
          exact ⟨position, _, normal, .opens known, rfl⟩
  | some placedFrame =>
      obtain ⟨position, frame⟩ := placedFrame
      simp only [Joined.add, known, bind, Except.bind, pure, Except.pure] at ok
      split at ok
      · cases ok
      · cases merges : PartialShape.mergeDims frame (dims.set position .none) with
        | none =>
            rw [merges] at ok
            cases ok
        | some merged =>
            rw [merges] at ok
            obtain rfl := Except.ok.inj ok
            obtain ⟨ofFrame, ofDims⟩ := PartialShape.mergeDims_refines merges
            have lengths : frame.length = dims.length := by
              rw [← ofFrame.length_eq, ofDims.length_eq, List.length_set]
            exact ⟨position, merged, lengths ▸ placed position frame known, .merges known merges,
              rfl⟩

theorem Joined.Takes.refines {joined : Joined} {position : Nat} {dims merged : List Dim}
    (takes : joined.Takes position dims merged) :
    PartialShape.RefinesDims merged (dims.set position .none) := by
  cases takes with
  | opens first => exact .refl _
  | merges known merges => exact (PartialShape.mergeDims_refines merges).2

theorem Joined.Takes.placed {joined : Joined} {position : Nat} {dims merged : List Dim}
    (takes : joined.Takes position dims merged)
    (normal : normalizeAxis axis dims.length = .ok position) :
    ∀ place others, some (position, merged) = some (place, others) →
      normalizeAxis axis others.length = .ok place := by
  intro place others same
  obtain ⟨rfl, rfl⟩ := Prod.mk.inj (Option.some.inj same)
  rwa [takes.refines.length_eq, List.length_set]

/-- Where a finer input is added to what is joined of finer inputs, a coarser one can be
added to what is joined of coarser inputs. -/
theorem Joined.Refines.add_mono {finer coarser after : Joined}
    (refines : Joined.Refines axis finer coarser) {fine coarse : PartialShape}
    (input : fine.Refines coarse) (ok : finer.add axis fine = .ok after) :
    ∃ other, coarser.add axis coarse = .ok other ∧ Joined.Refines axis after other := by
  have same {position place : Nat} {frame others : List Dim}
      (found : finer.frame = some (position, frame)) (known : finer.frame = some (place, others)) :
      position = place ∧ frame = others :=
    Prod.mk.inj (Option.some.inj (found.symm.trans known))
  cases coarse with
  | unranked =>
      refine ⟨{ coarser with total := .none }, rfl, ?_⟩
      cases fine with
      | unranked =>
          obtain rfl := Except.ok.inj ok
          exact ⟨refines.placed, .unknown _, refines.frame⟩
      | ranked dims =>
          obtain ⟨position, merged, normal, takes, rfl⟩ := exists_takes refines.placed ok
          refine ⟨takes.placed normal, .unknown _, fun place frame known => ?_⟩
          obtain ⟨others, frameKnown, refinesFrame⟩ := refines.frame place frame known
          cases takes with
          | opens first => rw [first] at frameKnown; cases frameKnown
          | merges found merges =>
              obtain ⟨rfl, rfl⟩ := same found frameKnown
              exact ⟨merged, rfl, (PartialShape.mergeDims_refines merges).1.trans refinesFrame⟩
  | ranked coarseDims =>
      obtain ⟨dims, rfl, refinesDims⟩ := input.exists_ranked
      obtain ⟨position, merged, normal, takes, rfl⟩ := exists_takes refines.placed ok
      have opened : PartialShape.RefinesDims (dims.set position .none)
          (coarseDims.set position .none) := refinesDims.set position (.refl _)
      obtain ⟨others, taken, refinesMerged⟩ : ∃ others,
          coarser.Takes position coarseDims others ∧ PartialShape.RefinesDims merged others := by
        cases known : coarser.frame with
        | none => exact ⟨_, .opens known, takes.refines.trans opened⟩
        | some placedFrame =>
            obtain ⟨fineFrame, frameKnown, refinesFrame⟩ := refines.frame _ _ known
            cases takes with
            | opens first => rw [first] at frameKnown; cases frameKnown
            | merges found merges =>
                obtain ⟨samePosition, rfl⟩ := same found frameKnown
                obtain ⟨others, mergesOthers, refinesOthers⟩ :=
                  PartialShape.mergeDims_mono refinesFrame opened merges
                exact ⟨others, .merges (samePosition ▸ known) mergesOthers, refinesOthers⟩
      refine ⟨_, add_of_takes (refinesDims.length_eq ▸ normal) taken, takes.placed normal,
        addDims_mono refines.total (refinesDims.getElem? position), fun place frame known => ?_⟩
      obtain ⟨rfl, rfl⟩ := Prod.mk.inj (Option.some.inj known)
      exact ⟨merged, rfl, refinesMerged⟩

theorem Joined.foldlM_add_mono {fine coarse : List PartialShape}
    (inputs : List.Forall₂ PartialShape.Refines fine coarse) {finer coarser after : Joined}
    (refines : Joined.Refines axis finer coarser)
    (ok : fine.foldlM (Joined.add axis) finer = .ok after) :
    ∃ other, coarse.foldlM (Joined.add axis) coarser = .ok other ∧
      Joined.Refines axis after other := by
  induction inputs generalizing finer coarser with
  | nil =>
      obtain rfl := Except.ok.inj ok
      exact ⟨coarser, rfl, refines⟩
  | cons here rest ih =>
      rw [List.foldlM_cons] at ok
      obtain ⟨between, added, ended⟩ := exists_of_bind_eq_ok ok
      obtain ⟨coarseBetween, coarseAdded, refinesBetween⟩ := refines.add_mono here added
      obtain ⟨other, coarseEnded, refinesOther⟩ := ih refinesBetween ended
      refine ⟨other, ?_, refinesOther⟩
      rw [List.foldlM_cons, coarseAdded]
      exact coarseEnded

theorem Joined.Refines.shape {finer coarser : Joined}
    (refines : Joined.Refines axis finer coarser) : finer.shape.Refines coarser.shape := by
  rw [Joined.shape, Joined.shape]
  cases known : coarser.frame with
  | none => exact PartialShape.refines_unranked _
  | some placedFrame =>
      obtain ⟨others, found, refinesFrame⟩ := refines.frame _ _ known
      rw [found]
      exact refinesFrame.set _ refines.total

/-- Putting finer inputs one after the other. -/
theorem infer_mono {fine coarse : List TensorType} {type : TensorType}
    (inputs : List.Forall₂ TensorType.Refines fine coarse) (ok : infer axis fine = .ok type) :
    ∃ other, infer axis coarse = .ok other ∧ type.Refines other := by
  have shapes : List.Forall₂ PartialShape.Refines (fine.map (·.shape)) (coarse.map (·.shape)) := by
    rw [List.forall₂_map_left_iff, List.forall₂_map_right_iff]
    exact inputs.imp fun _ _ refines => refines.2
  have same : coarse.isEmpty = fine.isEmpty := by
    cases inputs <;> rfl
  rw [infer] at ok ⊢
  rw [same]
  cases nothing : fine.isEmpty with
  | true =>
      rw [nothing] at ok
      cases ok
  | false =>
      rw [nothing] at ok
      obtain ⟨elementType, merged, ok⟩ := exists_of_bind_eq_ok ok
      obtain ⟨joined, added, ok⟩ := exists_of_bind_eq_ok ok
      obtain rfl := Except.ok.inj ok
      obtain ⟨otherElement, mergedOther, refinesElement⟩ :=
        mergeElementTypes_mono inputs (.refl _) merged
      obtain ⟨otherJoined, addedOther, refinesJoined⟩ :=
        Joined.foldlM_add_mono shapes Joined.refines_none added
      refine ⟨{ elementType := otherElement, shape := otherJoined.shape }, ?_, refinesElement,
        refinesJoined.shape⟩
      rw [mergedOther, addedOther]
      rfl

end Concat

namespace Reshape

variable {specialZero : Bool} {fine coarse : PartialShape} {pattern : List Int}

/-- Both are to be worked out, or the size that one asks for refines that of the
other. -/
def Entry.Refines : Entry → Entry → Prop
  | .workedOut, .workedOut => True
  | .size finer, .size coarser => Dim.Refines finer coarser
  | _, _ => False

theorem Entry.Refines.refl (entry : Entry) : entry.Refines entry := by
  cases entry with
  | workedOut => trivial
  | size dim => exact Dim.Refines.refl dim

theorem Entry.Refines.eq_workedOut_iff {finer coarser : Entry} (refines : finer.Refines coarser) :
    finer = .workedOut ↔ coarser = .workedOut := by
  cases finer with
  | workedOut =>
      cases coarser with
      | workedOut => exact Iff.rfl
      | size coarse => exact refines.elim
  | size fine =>
      cases coarser with
      | workedOut => exact refines.elim
      | size coarse => exact iff_of_false nofun nofun

theorem Entry.Refines.dim {finer coarser : Entry} (refines : finer.Refines coarser)
    (inferred : Dim) : Dim.Refines (finer.dim inferred) (coarser.dim none) := by
  cases coarser with
  | workedOut => exact .unknown _
  | size coarse =>
      cases finer with
      | workedOut => exact refines.elim
      | size fine => exact refines

theorem entry_mono (refines : fine.Refines coarse) {index : Nat} {value : Int} {finer : Entry}
    (ok : entry specialZero fine pattern index value = .ok finer) :
    ∃ coarser, entry specialZero coarse pattern index value = .ok coarser ∧
      finer.Refines coarser := by
  rw [entry] at ok ⊢
  split
  next workedOut =>
    rw [if_pos workedOut] at ok
    obtain rfl := Except.ok.inj ok
    exact ⟨_, rfl, .refl _⟩
  next notWorkedOut =>
    rw [if_neg notWorkedOut] at ok
    split
    next copies =>
      rw [if_pos copies] at ok
      rcases refines.rank? with unknown | same
      · rw [unknown]
        cases known : fine.rank? with
        | none =>
            rw [known] at ok
            obtain rfl := Except.ok.inj ok
            exact ⟨_, rfl, .refl _⟩
        | some rank =>
            rw [known] at ok
            dsimp only at ok
            split at ok
            · cases ok
            · obtain rfl := Except.ok.inj ok
              exact ⟨.size none, rfl, Dim.Refines.unknown _⟩
      · rw [← same]
        cases known : fine.rank? with
        | none =>
            rw [known] at ok
            exact ⟨finer, ok, .refl finer⟩
        | some rank =>
            rw [known] at ok
            dsimp only at ok ⊢
            split
            next beyond =>
              rw [if_pos beyond] at ok
              cases ok
            next within =>
              rw [if_neg within] at ok
              obtain rfl := Except.ok.inj ok
              exact ⟨_, rfl, refines.dim index⟩
    next notCopied =>
      rw [if_neg notCopied] at ok
      exact ⟨finer, ok, .refl finer⟩

theorem entries_mono (refines : fine.Refines coarse) {index : Nat} {before : Bool}
    {values : List Int} {finer : List Entry}
    (ok : entries specialZero fine pattern index before values = .ok finer) :
    ∃ coarser, entries specialZero coarse pattern index before values = .ok coarser ∧
      List.Forall₂ Entry.Refines finer coarser := by
  induction values generalizing index before finer with
  | nil =>
      obtain rfl := Except.ok.inj ok
      exact ⟨[], rfl, .nil⟩
  | cons value values ih =>
      rw [entries] at ok
      obtain ⟨first, found, ok⟩ := exists_of_bind_eq_ok ok
      obtain ⟨coarseFirst, coarseFound, refinesFirst⟩ := entry_mono refines found
      have same : (first = .workedOut) = (coarseFirst = .workedOut) :=
        propext refinesFirst.eq_workedOut_iff
      by_cases twice : first = .workedOut ∧ before
      · rw [if_pos twice] at ok
        cases ok
      · rw [if_neg twice] at ok
        obtain ⟨rest, foundRest, ok⟩ := exists_of_bind_eq_ok ok
        obtain rfl := Except.ok.inj ok
        obtain ⟨coarseRest, coarseFoundRest, refinesRest⟩ := ih foundRest
        refine ⟨coarseFirst :: coarseRest, ?_, .cons refinesFirst refinesRest⟩
        simp only [same] at twice coarseFoundRest
        rw [entries, coarseFound]
        change (if coarseFirst = .workedOut ∧ before then _ else _) = _
        rw [if_neg twice]
        rw [coarseFoundRest]
        rfl

/-- The shape after a reshape has the dimensions that the entries leave. -/
theorem exists_entries_of_inferShape {shape : PartialShape}
    (ok : inferShape specialZero fine pattern = .ok shape) :
    ∃ found inferred, entries specialZero fine pattern 0 false pattern = .ok found ∧
      shape = .ranked (found.map (Entry.dim inferred)) := by
  rw [inferShape] at ok
  obtain ⟨found, entriesFound, ok⟩ := exists_of_bind_eq_ok ok
  dsimp only at ok
  split at ok
  · cases ok
  · exact ⟨found, _, entriesFound, (Except.ok.inj ok).symm⟩
  · split at ok
    · exact ⟨found, _, entriesFound, (Except.ok.inj ok).symm⟩
    · split at ok
      · cases ok
      · split at ok
        · split at ok
          · cases ok
          · exact ⟨found, _, entriesFound, (Except.ok.inj ok).symm⟩
        · split at ok
          · cases ok
          · exact ⟨found, _, entriesFound, (Except.ok.inj ok).symm⟩

theorem inferShape_mono (refines : fine.Refines coarse) {shape : PartialShape}
    (ok : inferShape specialZero fine pattern = .ok shape) :
    ∃ other, inferShape specialZero coarse pattern = .ok other ∧ shape.Refines other := by
  rcases refines.eq_or_unknown with rfl | unknown
  · exact ⟨shape, ok, .refl shape⟩
  · obtain ⟨found, inferred, entriesFound, rfl⟩ := exists_entries_of_inferShape ok
    obtain ⟨others, othersFound, refinesEntries⟩ := entries_mono refines entriesFound
    refine ⟨.ranked (others.map (Entry.dim none)), ?_, ?_⟩
    · rw [inferShape, othersFound, unknown]
      rfl
    · apply PartialShape.refinesDims_iff.mpr
      rw [List.forall₂_map_left_iff, List.forall₂_map_right_iff]
      exact refinesEntries.imp fun _ _ refines => refines.dim inferred

/-- The shape after a reshape by a pattern of the given shape and, if they are known,
values. -/
def shapeBy (specialZero : Bool) (data pattern : PartialShape) (values : Option (List Int)) :
    Except InferenceError PartialShape :=
  match values with
  | some values => inferShape specialZero data values
  | none => .ok ((pattern.dim 0).elim .unranked .ofRank)

theorem infer_eq_ok_iff {data patternType type : TensorType} {values : Option (List Int)} :
    infer specialZero data patternType values = .ok type ↔
      (patternType.elementType = .dynamic ∨ patternType.elementType.isIntegral) ∧
      (patternType.shape.rank? = none ∨ patternType.shape.rank? = some 1) ∧
      ∃ shape, shapeBy specialZero data.shape patternType.shape values = .ok shape ∧
        type = { elementType := data.elementType, shape } := by
  have element :
      (!patternType.elementType.isDynamic && !patternType.elementType.isIntegral) = true ↔
        ¬ (patternType.elementType = .dynamic ∨ patternType.elementType.isIntegral) := by
    simp [ElementType.isDynamic]
  have rank : patternType.shape.rank?.any (· ≠ 1) = true ↔
      ¬ (patternType.shape.rank? = none ∨ patternType.shape.rank? = some 1) := by
    cases patternType.shape.rank? <;> simp
  rw [infer]
  split
  next refused => exact iff_of_false (fun ok => by cases ok) fun both => element.mp refused both.1
  next integral =>
    rw [element, not_not] at integral
    rw [and_iff_right integral]
    change (if patternType.shape.rank?.any (· ≠ 1) = true then _ else _) = _ ↔ _
    split
    next refused => exact iff_of_false (fun ok => by cases ok) fun both => rank.mp refused both.1
    next vector =>
      rw [rank, not_not] at vector
      rw [and_iff_right vector]
      cases values with
      | some values =>
          dsimp only [shapeBy]
          cases inferShape specialZero data.shape values <;>
            simp [bind, Except.bind, pure, Except.pure, eq_comm]
      | none =>
          dsimp only [shapeBy]
          cases patternType.shape.dim 0 <;>
            simp [bind, Except.bind, pure, Except.pure, eq_comm]

/-- Reshaping finer data by a finer pattern. -/
theorem infer_mono {fine coarse finePattern coarsePattern type : TensorType}
    (data : fine.Refines coarse) (pattern : finePattern.Refines coarsePattern)
    {values : Option (List Int)} (ok : infer specialZero fine finePattern values = .ok type) :
    ∃ other, infer specialZero coarse coarsePattern values = .ok other ∧ type.Refines other := by
  obtain ⟨element, rank, shape, found, rfl⟩ := infer_eq_ok_iff.mp ok
  have coarseElement : coarsePattern.elementType = .dynamic ∨
      coarsePattern.elementType.isIntegral := by
    rcases pattern.1 with unknown | same
    · exact Or.inl unknown
    · exact same ▸ element
  have coarseRank : coarsePattern.shape.rank? = none ∨ coarsePattern.shape.rank? = some 1 := by
    rcases pattern.2.rank? with unknown | same
    · exact Or.inl unknown
    · exact same ▸ rank
  obtain ⟨other, coarseFound, refines⟩ : ∃ other,
      shapeBy specialZero coarse.shape coarsePattern.shape values = .ok other ∧
        shape.Refines other := by
    cases values with
    | some values => exact inferShape_mono data.2 found
    | none =>
        obtain rfl := Except.ok.inj found
        refine ⟨_, rfl, ?_⟩
        rcases pattern.2.dim 0 with unknown | same
        · rw [unknown]
          exact PartialShape.refines_unranked _
        · rw [same]
          exact .refl _
  exact ⟨_, infer_eq_ok_iff.mpr ⟨coarseElement, coarseRank, other, coarseFound, rfl⟩, data.1,
    refines⟩

end Reshape

/-- The type of the first operand refines that of the second; their values are alike. -/
structure Operand.Refines (finer coarser : Operand) : Prop where
  type : finer.type.Refines coarser.type
  values : finer.values = coarser.values

namespace Operator

/-- The operators are the same, or they declare types of which the first refines the
second. -/
inductive Refines : Operator → Operator → Prop where
  | refl (operator : Operator) : Refines operator operator
  | declares {finer coarser : TensorType} (refines : finer.Refines coarser) :
      Refines (parameter finer) (parameter coarser)

theorem Refines.constantValues?_eq {finer coarser : Operator} (refines : finer.Refines coarser) :
    finer.constantValues? = coarser.constantValues? := by
  cases refines <;> rfl

variable {fine coarse : List Operand}

theorem checkCount_congr (operands : List.Forall₂ Operand.Refines fine coarse) (least most : Nat) :
    checkCount least most fine = checkCount least most coarse := by
  rw [checkCount, checkCount, operands.length_eq]

theorem single_mono (operands : List.Forall₂ Operand.Refines fine coarse) {operand : Operand}
    (only : single fine = .ok operand) :
    ∃ other, single coarse = .ok other ∧ operand.Refines other := by
  rcases operands with _ | ⟨here, _ | _⟩
  · cases only
  · obtain rfl := Except.ok.inj only
    exact ⟨_, rfl, here⟩
  · cases only

theorem refines_types (operands : List.Forall₂ Operand.Refines fine coarse) :
    List.Forall₂ TensorType.Refines (fine.map (·.type)) (coarse.map (·.type)) := by
  rw [List.forall₂_map_left_iff, List.forall₂_map_right_iff]
  exact operands.imp fun _ _ refines => refines.type

theorem infer_relu_mono (operands : List.Forall₂ Operand.Refines fine coarse)
    {types : List TensorType} (ok : relu.infer fine = .ok types) :
    ∃ others, relu.infer coarse = .ok others ∧ List.Forall₂ TensorType.Refines types others := by
  obtain ⟨operand, only, ok⟩ := exists_of_bind_eq_ok ok
  obtain ⟨other, coarseOnly, refines⟩ := single_mono operands only
  dsimp only at ok
  split at ok
  · cases ok
  next notBoolean =>
    obtain rfl := Except.ok.inj ok
    have coarseNotBoolean : other.type.elementType ≠ .boolean := by
      rcases refines.type.1 with unknown | same
      · rw [unknown]
        decide
      · exact same ▸ notBoolean
    refine ⟨_, ?_, .cons refines.type .nil⟩
    rw [infer, coarseOnly]
    change (if other.type.elementType = .boolean then _ else _) = _
    rw [if_neg coarseNotBoolean]
    rfl

/-- Whatever an operator infers from its operands, it infers no more than that from
operands of which less is known, and is not refused. -/
theorem infer_mono {finer coarser : Operator} (refines : finer.Refines coarser)
    (operands : List.Forall₂ Operand.Refines fine coarse) {types : List TensorType}
    (ok : finer.infer fine = .ok types) :
    ∃ others, coarser.infer coarse = .ok others ∧
      List.Forall₂ TensorType.Refines types others := by
  cases refines with
  | declares refines =>
      rw [infer, checkCount_congr operands] at ok
      obtain ⟨_, none, ok⟩ := exists_of_bind_eq_ok ok
      obtain rfl := Except.ok.inj ok
      refine ⟨_, ?_, .cons refines .nil⟩
      rw [infer, none]
      rfl
  | refl =>
      cases finer with
      | parameter declared =>
          rw [infer, checkCount_congr operands] at ok
          exact ⟨types, ok, TensorType.refines_self types⟩
      | result =>
          obtain ⟨operand, only, ok⟩ := exists_of_bind_eq_ok ok
          obtain rfl := Except.ok.inj ok
          obtain ⟨other, coarseOnly, refines⟩ := single_mono operands only
          refine ⟨_, ?_, .cons refines.type .nil⟩
          rw [infer, coarseOnly]
          rfl
      | constant elementType sizes values =>
          rw [infer, checkCount_congr operands] at ok
          exact ⟨types, ok, TensorType.refines_self types⟩
      | assign stateVariable =>
          rw [infer, checkCount_congr operands] at ok
          exact ⟨types, ok, TensorType.refines_self types⟩
      | relu =>
          exact infer_relu_mono operands ok
      | concat axis =>
          obtain ⟨type, joined, ok⟩ := exists_of_bind_eq_ok ok
          obtain rfl := Except.ok.inj ok
          obtain ⟨other, coarseJoined, refines⟩ := Concat.infer_mono (refines_types operands) joined
          refine ⟨_, ?_, .cons refines .nil⟩
          rw [infer, coarseJoined]
          rfl
      | shapeOf =>
          obtain ⟨operand, only, ok⟩ := exists_of_bind_eq_ok ok
          obtain rfl := Except.ok.inj ok
          obtain ⟨other, coarseOnly, refines⟩ := single_mono operands only
          refine ⟨[{ elementType := .i64, shape := .ranked [other.type.shape.rank?] }], ?_,
            .cons ⟨.refl _, refines.type.2.rank?, trivial⟩ .nil⟩
          rw [infer, coarseOnly]
          rfl
      | reshape specialZero =>
          rcases operands with _ | ⟨data, _ | ⟨pattern, _ | _⟩⟩
          · cases ok
          · cases ok
          · obtain ⟨type, reshaped, ok⟩ := exists_of_bind_eq_ok ok
            obtain rfl := Except.ok.inj ok
            obtain ⟨other, coarseReshaped, refines⟩ :=
              Reshape.infer_mono data.type pattern.type reshaped
            refine ⟨_, ?_, .cons refines .nil⟩
            rw [infer, ← pattern.values, coarseReshaped]
            rfl
          · cases ok

end Operator

end TensorGraph
