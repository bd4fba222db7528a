import Mathlib
import TensorGraph.Shape

/-!
# Counting the elements

The sizes of a static shape are multiplied up from left to right, and the count is given
up as soon as a product leaves the machine word.  From a zero on, no product does so any
more.  What decides is therefore the product of the sizes in front of the first zero, which
depends on the order of the sizes where there is a zero, and only there.
-/

namespace TensorGraph

section Products

variable {sizes : List Nat}

/-- From a product on, sizes are multiplied up if no partial product leaves the machine
word. -/
theorem foldlM_bounded_eq_some_iff {start product : Nat} (fits : start < wordLimit) :
    sizes.foldlM (fun product size =>
        if product * size < wordLimit then some (product * size) else none) start =
      some product ↔
    product = start * sizes.prod ∧ ∀ taken, start * (sizes.take taken).prod < wordLimit := by
  induction sizes generalizing start with
  | nil => simp [fits, eq_comm]
  | cons size sizes ih =>
      rw [List.foldlM_cons]
      by_cases within : start * size < wordLimit
      · rw [if_pos within, Option.bind_eq_bind, Option.bind_some, ih within, List.prod_cons,
          Nat.mul_assoc]
        refine and_congr_right fun _ => ⟨fun all taken => ?_, fun all taken => ?_⟩
        · cases taken with
          | zero => simpa using fits
          | succ taken =>
              rw [List.take_succ_cons, List.prod_cons, ← Nat.mul_assoc]
              exact all taken
        · have next := all (taken + 1)
          rwa [List.take_succ_cons, List.prod_cons, ← Nat.mul_assoc] at next
      · rw [if_neg within]
        refine iff_of_false nofun fun both => within ?_
        simpa using both.2 1

/-- The product of the sizes is found if all partial products are machine words. -/
theorem boundedProduct_eq_some_iff {product : Nat} :
    boundedProduct sizes = some product ↔
      product = sizes.prod ∧ ∀ taken, (sizes.take taken).prod < wordLimit := by
  have one : 1 < wordLimit := by decide
  rw [boundedProduct, foldlM_bounded_eq_some_iff one]
  simp only [Nat.one_mul]

/-- No partial product exceeds that of the sizes in front of the first zero. -/
theorem prod_take_le (sizes : List Nat) (taken : Nat) :
    (sizes.take taken).prod ≤ (sizes.takeWhile (· ≠ 0)).prod := by
  induction sizes generalizing taken with
  | nil => simp
  | cons size sizes ih =>
      rcases Nat.eq_zero_or_pos size with rfl | positive
      · cases taken <;> simp
      · rw [List.takeWhile_cons_of_pos (by simpa using positive.ne'), List.prod_cons]
        cases taken with
        | zero =>
            have rest : 1 ≤ (sizes.takeWhile (· ≠ 0)).prod := by simpa using ih 0
            simpa using Nat.mul_le_mul positive rest
        | succ taken =>
            rw [List.take_succ_cons, List.prod_cons]
            exact Nat.mul_le_mul_left size (ih taken)

theorem prod_take_lt_iff :
    (∀ taken, (sizes.take taken).prod < wordLimit) ↔
      (sizes.takeWhile (· ≠ 0)).prod < wordLimit := by
  constructor
  · intro all
    have initial : sizes.takeWhile (· ≠ 0) <+: sizes := List.takeWhile_prefix _
    rw [List.prefix_iff_eq_take.mp initial]
    exact all _
  · intro within taken
    exact (prod_take_le sizes taken).trans_lt within

theorem prod_le_prod_takeWhile (sizes : List Nat) :
    sizes.prod ≤ (sizes.takeWhile (· ≠ 0)).prod := by
  simpa using prod_take_le sizes sizes.length

theorem takeWhile_ne_zero_eq_self (positive : 0 ∉ sizes) : sizes.takeWhile (· ≠ 0) = sizes :=
  List.takeWhile_eq_self_iff.mpr fun size member => by
    simpa using ne_of_mem_of_not_mem member positive

end Products

namespace PartialShape

variable {sizes : List Nat}

@[simp] theorem sizes?_fixed (sizes : List Nat) : (fixed sizes).sizes? = some sizes := by
  change (sizes.map some).mapM id = some sizes
  induction sizes with
  | nil => rfl
  | cons size sizes ih => simp [ih]

theorem elementCount_eq_exactly_iff {count : Nat} :
    (fixed sizes).elementCount = .exactly count ↔ boundedProduct sizes = some count := by
  rw [elementCount, sizes?_fixed]
  dsimp only
  cases boundedProduct sizes <;> simp

/-- What is counted is a machine word. -/
theorem lt_of_elementCount {count : Nat} (counted : (fixed sizes).elementCount = .exactly count) :
    count < wordLimit := by
  obtain ⟨rfl, bounded⟩ :=
    boundedProduct_eq_some_iff.mp (elementCount_eq_exactly_iff.mp counted)
  simpa using bounded sizes.length

/-- What is counted is the exact product, unless the sizes in front of the first zero
overflow. -/
theorem elementCount_fixed (sizes : List Nat) :
    (fixed sizes).elementCount =
      if (sizes.takeWhile (· ≠ 0)).prod < wordLimit then .exactly sizes.prod else .overflow := by
  split
  next within =>
    exact elementCount_eq_exactly_iff.mpr
      (boundedProduct_eq_some_iff.mpr ⟨rfl, prod_take_lt_iff.mpr within⟩)
  next beyond =>
    rw [elementCount, sizes?_fixed]
    dsimp only
    cases found : boundedProduct sizes with
    | none => rfl
    | some count =>
        exact absurd (prod_take_lt_iff.mp (boundedProduct_eq_some_iff.mp found).2) beyond

/-- The elements of a static shape are counted exactly, and beyond the machine word not at
all, except where the sizes in front of a zero overflow.  Without zeros the order of the
sizes is of no importance. -/
theorem counted_up_to_first_zero (sizes : List Nat) :
    (∀ count, (fixed sizes).elementCount = .exactly count ↔
      count = sizes.prod ∧ (sizes.takeWhile (· ≠ 0)).prod < wordLimit) ∧
    ((fixed sizes).elementCount = .overflow ↔
      wordLimit ≤ (sizes.takeWhile (· ≠ 0)).prod) ∧
    (wordLimit ≤ sizes.prod → (fixed sizes).elementCount = .overflow) ∧
    (0 ∉ sizes →
      ((fixed sizes).elementCount =
        if sizes.prod < wordLimit then .exactly sizes.prod else .overflow) ∧
      ∀ others, sizes.Perm others →
        (fixed others).elementCount = (fixed sizes).elementCount) := by
  have counted := elementCount_fixed sizes
  refine ⟨fun count => ?_, ?_, fun large => ?_, fun positive => ⟨?_, fun others permuted => ?_⟩⟩
  · rw [elementCount_eq_exactly_iff, boundedProduct_eq_some_iff, prod_take_lt_iff]
  · rw [counted, ← Nat.not_lt]
    split
    next within => exact iff_of_false nofun (not_not.mpr within)
    next beyond => exact iff_of_true rfl beyond
  · rw [counted, if_neg (large.trans (prod_le_prod_takeWhile sizes)).not_gt]
  · rw [counted, takeWhile_ne_zero_eq_self positive]
  · have others_positive : 0 ∉ others := fun member => positive (permuted.mem_iff.mpr member)
    rw [counted, elementCount_fixed others, takeWhile_ne_zero_eq_self positive,
      takeWhile_ne_zero_eq_self others_positive, permuted.prod_eq]

theorem counted_up_to_first_zero_square :
    0 ∉ [4294967295, 4294967297] ∧
      (fixed [4294967295, 4294967297]).elementCount = .exactly (wordLimit - 1) ∧
      wordLimit ≤ [4294967296, 4294967296].prod ∧
      (fixed [4294967296, 4294967296]).elementCount = .overflow := by
  have positive : 0 ∉ [4294967295, 4294967297] := by decide
  have large : wordLimit ≤ [4294967296, 4294967296].prod := by decide
  obtain ⟨-, -, -, exact_of_positive⟩ := counted_up_to_first_zero [4294967295, 4294967297]
  obtain ⟨-, -, overflow_of_large, -⟩ := counted_up_to_first_zero [4294967296, 4294967296]
  exact ⟨positive, (exact_of_positive positive).1, large, overflow_of_large large⟩

/-- A tensor without elements whose first two sizes overflow is not counted, though it is
with the zero in front. -/
theorem elementCount_zero_last :
    [wordLimit - 1, 2, 0].prod = 0 ∧
      (fixed [wordLimit - 1, 2, 0]).elementCount = .overflow ∧
      (fixed [0, wordLimit - 1, 2]).elementCount = .exactly 0 := by
  decide

end PartialShape
end TensorGraph
