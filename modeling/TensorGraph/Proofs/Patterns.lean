import Mathlib
import TensorGraph.Proofs.Counting
import TensorGraph.Proofs.Refinement

/-!
# Reshaping static data is exact

A pattern fixes the sizes of all its entries but those that are to be worked out.  Static
data are reshaped exactly if the pattern is in order and a single static shape with these
sizes has as many elements as the data.  An entry that is worked out has the quotient of the
elements by the product of the other sizes; the division is only reached where that product
is not zero.
-/

namespace TensorGraph

@[simp] theorem PartialShape.rank?_fixed (sizes : List Nat) :
    (PartialShape.fixed sizes).rank? = some sizes.length :=
  congrArg some (List.length_map some)

theorem PartialShape.dim_fixed {sizes : List Nat} {index : Nat} (within : index < sizes.length) :
    (PartialShape.fixed sizes).dim index = some (sizes.getD index 0) := by
  change ((sizes.map some)[index]?).join = _
  simp [within]

namespace Reshape

/-! ### What a pattern asks for -/

/-- The size that an entry asks for unless it is worked out: with special zeros, a zero asks
for the size of the data at its place. -/
def askedSize (specialZero : Bool) (sizes : List Nat) (index : Nat) (value : Int) : Nat :=
  if value = 0 ∧ specialZero then sizes.getD index 0 else value.toNat

/-- The sizes that the entries from a place on ask for, but for those worked out. -/
def askedSizes (specialZero : Bool) (sizes : List Nat) : Nat → List Int → List Nat
  | _, [] => []
  | index, value :: values =>
      if value = -1 then askedSizes specialZero sizes (index + 1) values
      else askedSize specialZero sizes index value ::
        askedSizes specialZero sizes (index + 1) values

/-- A static shape has the sizes that the entries from a place on ask for, and any size in
the place of an entry that is worked out. -/
def Follows (specialZero : Bool) (sizes : List Nat) : Nat → List Int → List Nat → Prop
  | _, [], [] => True
  | index, value :: values, size :: shape =>
      (value ≠ -1 → size = askedSize specialZero sizes index value) ∧
        Follows specialZero sizes (index + 1) values shape
  | _, _, _ => False

/-- The sizes that the entries from a place on ask for, with the given one wherever an entry
is worked out. -/
def filled (specialZero : Bool) (sizes : List Nat) (inferred : Nat) : Nat → List Int → List Nat
  | _, [] => []
  | index, value :: values =>
      (if value = -1 then inferred else askedSize specialZero sizes index value) ::
        filled specialZero sizes inferred (index + 1) values

section Filling

variable {specialZero : Bool} {sizes : List Nat} {index : Nat} {values : List Int}
  {shape : List Nat}

theorem follows_filled (inferred : Nat) :
    Follows specialZero sizes index values (filled specialZero sizes inferred index values) := by
  induction values generalizing index with
  | nil => trivial
  | cons value values ih => exact ⟨fun asked => if_neg asked, ih⟩

theorem eq_filled_of_not_mem (follows : Follows specialZero sizes index values shape)
    (absent : -1 ∉ values) (inferred : Nat) :
    shape = filled specialZero sizes inferred index values := by
  induction values generalizing index shape with
  | nil =>
      cases shape with
      | nil => rfl
      | cons _ _ => exact follows.elim
  | cons value values ih =>
      cases shape with
      | nil => exact follows.elim
      | cons size shape =>
          obtain ⟨asked, rest⟩ := List.ne_and_not_mem_of_not_mem_cons absent
          rw [filled, if_neg asked.symm, follows.1 asked.symm, ← ih follows.2 rest]

/-- A shape that follows a pattern with at most one entry to be worked out fills it with one
size. -/
theorem exists_eq_filled (follows : Follows specialZero sizes index values shape)
    (once : values.count (-1) ≤ 1) :
    ∃ inferred, shape = filled specialZero sizes inferred index values := by
  induction values generalizing index shape with
  | nil => exact ⟨0, eq_filled_of_not_mem follows List.not_mem_nil 0⟩
  | cons value values ih =>
      cases shape with
      | nil => exact follows.elim
      | cons size shape =>
          by_cases workedOut : value = -1
          · subst workedOut
            rw [List.count_cons_self] at once
            have absent : -1 ∉ values := List.count_eq_zero.mp (by omega)
            exact ⟨size, by
              rw [filled, if_pos rfl, ← eq_filled_of_not_mem follows.2 absent]⟩
          · rw [List.count_cons_of_ne workedOut] at once
            obtain ⟨inferred, rfl⟩ := ih follows.2 once
            exact ⟨inferred, by rw [filled, if_neg workedOut, follows.1 workedOut]⟩

theorem eq_of_filled_eq {first second : Nat} (member : -1 ∈ values)
    (same : filled specialZero sizes first index values =
      filled specialZero sizes second index values) : first = second := by
  induction values generalizing index with
  | nil => exact absurd member List.not_mem_nil
  | cons value values ih =>
      obtain ⟨here, rest⟩ := List.cons.inj same
      by_cases workedOut : value = -1
      · rwa [if_pos workedOut, if_pos workedOut] at here
      · exact ih ((List.mem_cons.mp member).resolve_left (Ne.symm workedOut)) rest

theorem prod_filled (inferred : Nat) :
    (filled specialZero sizes inferred index values).prod =
      (askedSizes specialZero sizes index values).prod * inferred ^ values.count (-1) := by
  induction values generalizing index with
  | nil => rfl
  | cons value values ih =>
      rw [filled, askedSizes, List.prod_cons, ih]
      by_cases workedOut : value = -1
      · subst workedOut
        rw [if_pos rfl, if_pos rfl, List.count_cons_self, Nat.pow_succ]
        ring
      · rw [if_neg workedOut, if_neg workedOut, List.count_cons_of_ne workedOut, List.prod_cons]
        ring

theorem mem_filled {inferred size : Nat}
    (member : size ∈ filled specialZero sizes inferred index values) :
    size = inferred ∨ size ∈ askedSizes specialZero sizes index values := by
  induction values generalizing index with
  | nil => exact absurd member List.not_mem_nil
  | cons value values ih =>
      rw [filled] at member
      rw [askedSizes]
      by_cases workedOut : value = -1
      · rw [if_pos workedOut] at member ⊢
        rcases List.mem_cons.mp member with here | rest
        · exact Or.inl here
        · exact ih rest
      · rw [if_neg workedOut] at member ⊢
        rcases List.mem_cons.mp member with here | rest
        · exact Or.inr (here ▸ List.mem_cons_self)
        · exact (ih rest).imp_right (List.mem_cons_of_mem _)

theorem take_filled (inferred taken : Nat) :
    (filled specialZero sizes inferred index values).take taken =
      filled specialZero sizes inferred index (values.take taken) := by
  induction values generalizing index taken with
  | nil => simp [filled]
  | cons value values ih =>
      cases taken with
      | zero => rfl
      | succ taken => rw [filled, List.take_succ_cons, List.take_succ_cons, filled, ih]

theorem askedSizes_take (taken : Nat) :
    askedSizes specialZero sizes index (values.take taken) <+:
      askedSizes specialZero sizes index values := by
  induction values generalizing index taken with
  | nil => simp
  | cons value values ih =>
      cases taken with
      | zero => exact List.nil_prefix
      | succ taken =>
          rw [List.take_succ_cons, askedSizes, askedSizes]
          split
          · exact ih taken
          · exact (List.prefix_cons_inj _).mpr (ih taken)

/-- Sizes asked for are machine words if those of the data and the pattern are. -/
theorem lt_of_mem_askedSizes (fits : ∀ size ∈ sizes, size < wordLimit)
    (words : ∀ value ∈ values, value < wordLimit) :
    ∀ size ∈ askedSizes specialZero sizes index values, size < wordLimit := by
  induction values generalizing index with
  | nil => exact fun size member => absurd member List.not_mem_nil
  | cons value values ih =>
      obtain ⟨word, rest⟩ := List.forall_mem_cons.mp words
      rw [askedSizes]
      split
      · exact ih rest
      · refine List.forall_mem_cons.mpr ⟨?_, ih rest⟩
        rw [askedSize]
        split
        · by_cases within : index < sizes.length
          · rw [List.getD_eq_getElem _ _ within]
            exact fits _ (List.getElem_mem within)
          · rw [List.getD_eq_default _ _ (Nat.le_of_not_lt within)]
            decide
        · have limit : 0 < wordLimit := by decide
          omega

end Filling

/-! ### The single shape -/

section Single

variable {specialZero : Bool} {sizes : List Nat} {index : Nat} {values : List Int} {total : Nat}

/-- The elements fill the pattern: they are a multiple of the product of the sizes asked for
if an entry is worked out, and equal to it otherwise. -/
def Fills (specialZero : Bool) (sizes : List Nat) (index : Nat) (values : List Int)
    (total : Nat) : Prop :=
  if -1 ∈ values then
    (askedSizes specialZero sizes index values).prod ≠ 0 ∧
      total % (askedSizes specialZero sizes index values).prod = 0
  else (askedSizes specialZero sizes index values).prod = total

instance : Decidable (Fills specialZero sizes index values total) :=
  inferInstanceAs (Decidable (if -1 ∈ values then
      (askedSizes specialZero sizes index values).prod ≠ 0 ∧
        total % (askedSizes specialZero sizes index values).prod = 0
    else (askedSizes specialZero sizes index values).prod = total))

/-- The size of the entry that is worked out. -/
def workedOutSize (specialZero : Bool) (sizes : List Nat) (index : Nat) (values : List Int)
    (total : Nat) : Nat :=
  total / (askedSizes specialZero sizes index values).prod

theorem count_eq_one (once : values.count (-1) ≤ 1) (member : -1 ∈ values) :
    values.count (-1) = 1 :=
  Nat.le_antisymm once (List.count_pos_iff.mpr member)

theorem prod_filled_workedOut (once : values.count (-1) ≤ 1)
    (fills : Fills specialZero sizes index values total) :
    (filled specialZero sizes (workedOutSize specialZero sizes index values total) index
      values).prod = total := by
  rw [prod_filled]
  by_cases member : -1 ∈ values
  · rw [Fills, if_pos member] at fills
    rw [count_eq_one once member, Nat.pow_one]
    exact Nat.mul_div_cancel' (Nat.dvd_of_mod_eq_zero fills.2)
  · rw [Fills, if_neg member] at fills
    rw [List.count_eq_zero.mpr member, Nat.pow_zero, Nat.mul_one, fills]

/-- The elements fill the pattern in one way only. -/
theorem eq_filled_of_prod {shape : List Nat} (once : values.count (-1) ≤ 1)
    (fills : Fills specialZero sizes index values total)
    (follows : Follows specialZero sizes index values shape) (product : shape.prod = total) :
    shape = filled specialZero sizes (workedOutSize specialZero sizes index values total) index
      values := by
  by_cases member : -1 ∈ values
  · obtain ⟨inferred, rfl⟩ := exists_eq_filled follows once
    rw [prod_filled, count_eq_one once member, Nat.pow_one] at product
    rw [Fills, if_pos member] at fills
    rw [workedOutSize, ← product, Nat.mul_div_cancel_left _ (Nat.pos_of_ne_zero fills.1)]
  · exact eq_filled_of_not_mem follows member _

/-- The elements fill the pattern exactly if a single static shape follows it and has that
many elements. -/
theorem existsUnique_iff_fills (once : values.count (-1) ≤ 1)
    (words : ∀ size ∈ askedSizes specialZero sizes index values, size < wordLimit)
    (small : total < wordLimit) :
    (∃! shape, (∀ size ∈ shape, size < wordLimit) ∧
      Follows specialZero sizes index values shape ∧ shape.prod = total) ↔
    Fills specialZero sizes index values total := by
  have word_filled {inferred : Nat} (word : inferred < wordLimit) :
      ∀ size ∈ filled specialZero sizes inferred index values, size < wordLimit :=
    fun size member => (mem_filled member).elim (fun same => same ▸ word) (words size)
  constructor
  · rintro ⟨shape, ⟨-, follows, product⟩, unique⟩
    rw [Fills]
    split
    next member =>
      obtain ⟨inferred, rfl⟩ := exists_eq_filled follows once
      rw [prod_filled, count_eq_one once member, Nat.pow_one] at product
      refine ⟨fun zero => ?_, by rw [← product, Nat.mul_mod_right]⟩
      have anySize {size : Nat} (word : size < wordLimit) : size = inferred := by
        refine eq_of_filled_eq member (unique _ ⟨word_filled word, follows_filled size, ?_⟩)
        rw [prod_filled, ← product, zero, Nat.zero_mul, Nat.zero_mul]
      have zero_eq_one : 0 = 1 :=
        (anySize (by decide)).trans (anySize (by decide)).symm
      exact absurd zero_eq_one (by decide)
    next absent =>
      rw [eq_filled_of_not_mem follows absent 0, prod_filled, List.count_eq_zero.mpr absent,
        Nat.pow_zero, Nat.mul_one] at product
      exact product
  · intro fills
    exact ⟨_, ⟨word_filled ((Nat.div_le_self _ _).trans_lt small), follows_filled _,
      prod_filled_workedOut once fills⟩,
      fun shape both => eq_filled_of_prod once fills both.2.1 both.2.2⟩

/-- Where the sizes asked for are multiplied up without leaving the machine word, the
elements of the shape are counted. -/
theorem elementCount_filled (once : values.count (-1) ≤ 1)
    (bounded : ∀ taken,
      ((askedSizes specialZero sizes index values).take taken).prod < wordLimit)
    (small : total < wordLimit) (fills : Fills specialZero sizes index values total) :
    (PartialShape.fixed (filled specialZero sizes
      (workedOutSize specialZero sizes index values total) index values)).elementCount =
      .exactly total := by
  rw [PartialShape.elementCount_eq_exactly_iff, boundedProduct_eq_some_iff]
  refine ⟨(prod_filled_workedOut once fills).symm, fun taken => ?_⟩
  rw [take_filled, prod_filled]
  have among : askedSizes specialZero sizes index (values.take taken) <+:
      askedSizes specialZero sizes index values := askedSizes_take taken
  by_cases member : -1 ∈ values.take taken
  · have occurs : -1 ∈ values := List.mem_of_mem_take member
    have onceTaken : (values.take taken).count (-1) ≤ 1 :=
      ((List.take_sublist taken values).count_le (-1)).trans once
    have whole := prod_filled_workedOut once fills
    rw [prod_filled, count_eq_one once occurs, Nat.pow_one] at whole
    rw [Fills, if_pos occurs] at fills
    obtain ⟨rest, same⟩ := among
    rw [count_eq_one onceTaken member, Nat.pow_one]
    refine lt_of_le_of_lt (Nat.mul_le_mul_right _ ?_) (whole ▸ small)
    rw [← same, List.prod_append] at fills ⊢
    exact Nat.le_mul_of_pos_right _ (Nat.pos_of_ne_zero (right_ne_zero_of_mul fills.1))
  · rw [List.count_eq_zero.mpr member, Nat.pow_zero, Nat.mul_one,
      List.prefix_iff_eq_take.mp among]
    exact bounded _

end Single

/-! ### The inference -/

/-- What the entries from a place on ask for. -/
def askedEntries (specialZero : Bool) (sizes : List Nat) : Nat → List Int → List Entry
  | _, [] => []
  | index, value :: values =>
      (if value = -1 then .workedOut else .size (some (askedSize specialZero sizes index value))) ::
        askedEntries specialZero sizes (index + 1) values

section Inferring

variable {specialZero : Bool} {sizes : List Nat} {pattern : List Int} {index : Nat}
  {values : List Int}

theorem entry_fixed_eq_ok_iff {value : Int} {found : Entry} :
    entry specialZero (.fixed sizes) pattern index value = .ok found ↔
      (value < 0 → value = -1) ∧ (specialZero → value = 0 → index < sizes.length) ∧
      found = if value = -1 then .workedOut
        else .size (some (askedSize specialZero sizes index value)) := by
  rw [entry, askedSize]
  split
  next workedOut =>
    rw [Except.ok.injEq, eq_comm]
    refine (and_iff_right fun _ => workedOut).trans (and_iff_right fun _ zero => ?_) |>.symm
    omega
  next asked =>
    split
    next copies =>
      rw [PartialShape.rank?_fixed]
      dsimp only
      split
      next beyond =>
        refine iff_of_false (fun ok => by cases ok) fun all => ?_
        exact Nat.not_lt.mpr beyond (all.2.1 copies.2 copies.1)
      next within =>
        rw [PartialShape.dim_fixed (Nat.not_le.mp within), Except.ok.injEq, eq_comm]
        refine (and_iff_right fun negative => ?_).trans
          (and_iff_right fun _ _ => Nat.not_le.mp within) |>.symm
        omega
    next notCopied =>
      split
      next negative => exact iff_of_false (fun ok => by cases ok) fun all => asked (all.1 negative)
      next natural =>
        rw [Except.ok.injEq, eq_comm]
        exact (and_iff_right fun negative => absurd negative natural).trans
          (and_iff_right fun special zero => absurd ⟨zero, special⟩ notCopied) |>.symm

theorem entries_cons_eq_ok_iff {data : PartialShape} {before : Bool} {value : Int}
    {found : List Entry} :
    entries specialZero data pattern index before (value :: values) = .ok found ↔
      ∃ first rest, entry specialZero data pattern index value = .ok first ∧
        ¬ (first = .workedOut ∧ before) ∧
        entries specialZero data pattern (index + 1) (before || first = .workedOut) values =
          .ok rest ∧
        found = first :: rest := by
  rw [entries]
  constructor
  · intro ok
    obtain ⟨first, here, ok⟩ := exists_of_bind_eq_ok ok
    by_cases twice : first = .workedOut ∧ before
    · rw [if_pos twice] at ok
      cases ok
    · rw [if_neg twice] at ok
      obtain ⟨rest, there, ok⟩ := exists_of_bind_eq_ok ok
      exact ⟨first, rest, here, twice, there, (Except.ok.inj ok).symm⟩
  · rintro ⟨first, rest, here, once, there, rfl⟩
    rw [here]
    change (if first = .workedOut ∧ before then _ else _) = _
    rw [if_neg once, there]
    rfl

theorem asked_eq_workedOut_iff {value : Int} {dim : Dim} :
    (if value = -1 then Entry.workedOut else .size dim) = .workedOut ↔ value = -1 := by
  split <;> simp [*]

theorem count_cons_le_one_iff {value : Int} {before : Bool} :
    (value :: values).count (-1) + before.toNat ≤ 1 ↔
      ¬ (value = -1 ∧ before) ∧ values.count (-1) + (before || decide (value = -1)).toNat ≤ 1 := by
  by_cases workedOut : value = -1
  · subst workedOut
    rw [List.count_cons_self]
    cases before <;> simp
  · rw [List.count_cons_of_ne workedOut]
    cases before <;> simp [workedOut]

theorem zeros_within_cons_iff {value : Int} {rank : Nat} :
    (∀ place, (value :: values)[place]? = some 0 → index + place < rank) ↔
      (value = 0 → index < rank) ∧
        ∀ place, values[place]? = some 0 → index + 1 + place < rank := by
  constructor
  · intro all
    refine ⟨fun zero => all 0 (congrArg some zero), fun place zero => ?_⟩
    have next := all (place + 1) zero
    omega
  · rintro ⟨here, rest⟩ place zero
    cases place with
    | zero => exact here (Option.some.inj zero)
    | succ place =>
        have next := rest place zero
        omega

/-- The entries of a pattern are accepted if at most one is to be worked out, no other is
negative, and those that are copied lie within the data. -/
theorem entries_fixed_eq_ok_iff {before : Bool} {found : List Entry} :
    entries specialZero (.fixed sizes) pattern index before values = .ok found ↔
      values.count (-1) + before.toNat ≤ 1 ∧ (∀ value ∈ values, value < 0 → value = -1) ∧
      (specialZero → ∀ place, values[place]? = some 0 → index + place < sizes.length) ∧
      found = askedEntries specialZero sizes index values := by
  induction values generalizing index before found with
  | nil =>
      rw [entries, askedEntries, Except.ok.injEq, eq_comm]
      cases before <;> simp
  | cons value values ih =>
      rw [entries_cons_eq_ok_iff, count_cons_le_one_iff, List.forall_mem_cons,
        zeros_within_cons_iff, askedEntries]
      constructor
      · rintro ⟨first, rest, here, once, there, rfl⟩
        obtain ⟨negative, copied, rfl⟩ := entry_fixed_eq_ok_iff.mp here
        obtain ⟨count, negatives, copies, rfl⟩ := ih.mp there
        rw [asked_eq_workedOut_iff] at once
        simp only [asked_eq_workedOut_iff] at count
        exact ⟨⟨once, count⟩, ⟨negative, negatives⟩,
          fun special => ⟨copied special, copies special⟩, rfl⟩
      · rintro ⟨⟨once, count⟩, ⟨negative, negatives⟩, copied, rfl⟩
        refine ⟨_, _, entry_fixed_eq_ok_iff.mpr ⟨negative, fun special => (copied special).1, rfl⟩,
          ?_, ih.mpr ⟨?_, negatives, fun special => (copied special).2, rfl⟩, rfl⟩
        · rwa [asked_eq_workedOut_iff]
        · simpa only [asked_eq_workedOut_iff] using count

theorem knownSizes?_workedOut (entries : List Entry) :
    knownSizes? (.workedOut :: entries) = knownSizes? entries := by
  rw [knownSizes?, List.filter_cons_of_neg (by simp), knownSizes?]

theorem knownSizes?_size (size : Nat) (entries : List Entry) :
    knownSizes? (.size (some size) :: entries) = (knownSizes? entries).map (size :: ·) := by
  rw [knownSizes?, List.filter_cons_of_pos (by simp), List.mapM_cons, ← knownSizes?]
  cases knownSizes? entries <;> rfl

theorem knownSizes?_askedEntries :
    knownSizes? (askedEntries specialZero sizes index values) =
      some (askedSizes specialZero sizes index values) := by
  induction values generalizing index with
  | nil => rfl
  | cons value values ih =>
      rw [askedEntries, askedSizes]
      split
      · rw [knownSizes?_workedOut, ih]
      · rw [knownSizes?_size, ih, Option.map_some]

theorem workedOut_mem_askedEntries :
    .workedOut ∈ askedEntries specialZero sizes index values ↔ -1 ∈ values := by
  induction values generalizing index with
  | nil => simp [askedEntries]
  | cons value values ih =>
      rw [askedEntries, List.mem_cons, List.mem_cons, ih, eq_comm, asked_eq_workedOut_iff,
        eq_comm]

theorem map_dim_askedEntries (inferred : Nat) :
    (askedEntries specialZero sizes index values).map (Entry.dim (some inferred)) =
      (filled specialZero sizes inferred index values).map some := by
  induction values generalizing index with
  | nil => rfl
  | cons value values ih =>
      rw [askedEntries, filled, List.map_cons, List.map_cons, ih]
      split <;> rfl

/-- Where no entry is worked out, nothing hangs on the size that would be. -/
theorem map_dim_of_not_mem {entries : List Entry} (absent : .workedOut ∉ entries)
    (first second : Dim) : entries.map (Entry.dim first) = entries.map (Entry.dim second) := by
  refine List.map_congr_left fun entry member => ?_
  cases entry with
  | workedOut => exact absurd member absent
  | size dim => rfl

/-- Once a pattern is accepted, static data are reshaped if the sizes asked for multiply up
within the machine word and the elements fill the pattern. -/
theorem inferShape_of_accepted {total : Nat}
    (counted : (PartialShape.fixed sizes).elementCount = .exactly total)
    (accepted : entries specialZero (.fixed sizes) pattern 0 false pattern =
      .ok (askedEntries specialZero sizes 0 pattern)) :
    inferShape specialZero (.fixed sizes) pattern =
      if boundedProduct (askedSizes specialZero sizes 0 pattern) = none then
        .error (.patternOverflow pattern)
      else if Fills specialZero sizes 0 pattern total then
        .ok (.fixed (filled specialZero sizes (workedOutSize specialZero sizes 0 pattern total) 0
          pattern))
      else .error (.patternMismatch total (.fixed sizes) pattern) := by
  rw [inferShape, accepted]
  dsimp only [bind, Except.bind]
  rw [counted, knownSizes?_askedEntries]
  dsimp only
  cases product : boundedProduct (askedSizes specialZero sizes 0 pattern) with
  | none => rfl
  | some known =>
      obtain ⟨rfl, -⟩ := boundedProduct_eq_some_iff.mp product
      simp only [workedOut_mem_askedEntries, Fills, workedOutSize, reduceCtorEq, if_false]
      by_cases member : -1 ∈ pattern
      · simp only [if_pos member]
        by_cases fills : (askedSizes specialZero sizes 0 pattern).prod ≠ 0 ∧
            total % (askedSizes specialZero sizes 0 pattern).prod = 0
        · rw [if_pos fills, if_neg (not_or.mpr ⟨fills.1, not_not.mpr fills.2⟩),
            map_dim_askedEntries]
          rfl
        · rw [if_neg fills, if_pos ((not_and_or.mp fills).imp_left not_not.mp)]
          rfl
      · simp only [if_neg member]
        by_cases fills : (askedSizes specialZero sizes 0 pattern).prod = total
        · rw [if_pos fills, if_neg (not_not.mpr fills),
            map_dim_of_not_mem (mt workedOut_mem_askedEntries.mp member) none
              (some (total / (askedSizes specialZero sizes 0 pattern).prod)),
            map_dim_askedEntries]
          rfl
        · rw [if_neg fills, if_pos fills]
          rfl

/-- Static data are reshaped by a pattern that is in order if the sizes asked for multiply
up within the machine word and the elements fill the pattern. -/
theorem inferShape_fixed_eq_ok_iff {total : Nat} {shape : PartialShape}
    (counted : (PartialShape.fixed sizes).elementCount = .exactly total) :
    inferShape specialZero (.fixed sizes) pattern = .ok shape ↔
      (pattern.count (-1) ≤ 1 ∧ (∀ value ∈ pattern, value < 0 → value = -1) ∧
        (specialZero → ∀ place, pattern[place]? = some 0 → place < sizes.length) ∧
        ∀ taken, ((askedSizes specialZero sizes 0 pattern).take taken).prod < wordLimit) ∧
      Fills specialZero sizes 0 pattern total ∧
      shape = .fixed (filled specialZero sizes (workedOutSize specialZero sizes 0 pattern total) 0
        pattern) := by
  have accepts {found : List Entry} :
      entries specialZero (.fixed sizes) pattern 0 false pattern = .ok found ↔
        pattern.count (-1) ≤ 1 ∧ (∀ value ∈ pattern, value < 0 → value = -1) ∧
        (specialZero → ∀ place, pattern[place]? = some 0 → place < sizes.length) ∧
        found = askedEntries specialZero sizes 0 pattern := by
    simpa using (entries_fixed_eq_ok_iff :
      entries specialZero (.fixed sizes) pattern 0 false pattern = .ok found ↔ _)
  constructor
  · intro ok
    obtain ⟨found, accepted, -⟩ := exists_of_bind_eq_ok ok
    obtain ⟨once, negatives, copies, rfl⟩ := accepts.mp accepted
    rw [inferShape_of_accepted counted accepted] at ok
    split at ok
    · cases ok
    next bounded =>
      split at ok
      next fills =>
        obtain ⟨known, product⟩ := Option.ne_none_iff_exists'.mp bounded
        exact ⟨⟨once, negatives, copies, (boundedProduct_eq_some_iff.mp product).2⟩, fills,
          (Except.ok.inj ok).symm⟩
      · cases ok
  · rintro ⟨⟨once, negatives, copies, bounded⟩, fills, rfl⟩
    rw [inferShape_of_accepted counted (accepts.mpr ⟨once, negatives, copies, rfl⟩),
      boundedProduct_eq_some_iff.mpr ⟨rfl, bounded⟩, if_neg nofun, if_pos fills]

end Inferring

/-! ### Divisions -/

/-- The quotient of machine words; a zero divisor stops the program. -/
def quotient? (dividend divisor : Nat) : Option Nat :=
  if divisor = 0 then none else some (dividend / divisor)

/-- The remainder of machine words; a zero divisor stops the program. -/
def remainder? (dividend divisor : Nat) : Option Nat :=
  if divisor = 0 then none else some (dividend % divisor)

/-- The size of the entry that is worked out, if there is one, by divisions that may stop
the program.  A zero is ruled out before the first of them. -/
def workOut? (total known : Nat) : Option (Option Nat) :=
  if known = 0 then some none
  else do
    let rest ← remainder? total known
    if rest ≠ 0 then return none
    let size ← quotient? total known
    return some size

/-- The shape after a reshape by a known pattern, by divisions that may stop the program. -/
def inferShape? (specialZero : Bool) (data : PartialShape) (pattern : List Int) :
    Option (Except InferenceError PartialShape) :=
  match entries specialZero data pattern 0 false pattern with
  | .error cause => some (.error cause)
  | .ok entries =>
      let withInferred (inferred : Dim) : PartialShape := .ranked (entries.map (Entry.dim inferred))
      match data.elementCount with
      | .overflow => some (.error (.elementCountOverflow data))
      | .unknown => some (.ok (withInferred none))
      | .exactly total =>
          match knownSizes? entries with
          | none => some (.ok (withInferred none))
          | some sizes =>
              match boundedProduct sizes with
              | none => some (.error (.patternOverflow pattern))
              | some known =>
                  if .workedOut ∈ entries then do
                    match ← workOut? total known with
                    | none => return .error (.patternMismatch total data pattern)
                    | some inferred => return .ok (withInferred (some inferred))
                  else if known ≠ total then some (.error (.patternMismatch total data pattern))
                  else some (.ok (withInferred none))

theorem workOut?_eq (total known : Nat) :
    workOut? total known =
      some (if known = 0 ∨ total % known ≠ 0 then none else some (total / known)) := by
  rw [workOut?, remainder?, quotient?]
  by_cases zero : known = 0
  · simp [zero]
  · by_cases rest : total % known = 0 <;> simp [zero, rest]

/-- No division stops the inference. -/
theorem inferShape?_eq (specialZero : Bool) (data : PartialShape) (pattern : List Int) :
    inferShape? specialZero data pattern = some (inferShape specialZero data pattern) := by
  rw [inferShape?, inferShape]
  cases entries specialZero data pattern 0 false pattern with
  | error cause => rfl
  | ok found =>
      dsimp only [bind, Except.bind]
      cases data.elementCount with
      | unknown => rfl
      | overflow => rfl
      | exactly total =>
          cases knownSizes? found with
          | none => rfl
          | some sizes =>
              dsimp only
              cases boundedProduct sizes with
              | none => rfl
              | some known =>
                  dsimp only
                  rw [workOut?_eq]
                  split
                  · split <;> rfl
                  · split <;> rfl

/-- Static data of machine words are reshaped by a pattern of 64 bits exactly if at most one
entry is to be worked out and no other is negative, zeros are copied from within the data
only, the sizes asked for multiply up from left to right without overflow, and a single
static shape has these sizes and as many elements as the data.  This shape is what is
inferred; its elements are counted without overflow.  No division by zero is reached. -/
theorem reshaping_exact (specialZero : Bool) {sizes : List Nat} {pattern : List Int}
    {total : Nat} (counted : (PartialShape.fixed sizes).elementCount = .exactly total)
    (fits : ∀ size ∈ sizes, size < wordLimit) (words : ∀ value ∈ pattern, value < wordLimit) :
    ((∃ out, inferShape specialZero (.fixed sizes) pattern = .ok out) ↔
      (pattern.count (-1) ≤ 1 ∧ (∀ value ∈ pattern, value < 0 → value = -1) ∧
        (specialZero → ∀ place, pattern[place]? = some 0 → place < sizes.length) ∧
        ∀ taken, ((askedSizes specialZero sizes 0 pattern).take taken).prod < wordLimit) ∧
      ∃! shape, (∀ size ∈ shape, size < wordLimit) ∧
        Follows specialZero sizes 0 pattern shape ∧ shape.prod = total) ∧
    (∀ out, inferShape specialZero (.fixed sizes) pattern = .ok out →
      ∃ shape, out = .fixed shape ∧ (∀ size ∈ shape, size < wordLimit) ∧
        Follows specialZero sizes 0 pattern shape ∧ shape.prod = total ∧
        (∀ other, Follows specialZero sizes 0 pattern other → other.prod = total →
          other = shape) ∧
        (PartialShape.fixed shape).elementCount = .exactly total) ∧
    inferShape? specialZero (.fixed sizes) pattern =
      some (inferShape specialZero (.fixed sizes) pattern) := by
  have small : total < wordLimit := PartialShape.lt_of_elementCount counted
  have asked : ∀ size ∈ askedSizes specialZero sizes 0 pattern, size < wordLimit :=
    lt_of_mem_askedSizes fits words
  have single (once : pattern.count (-1) ≤ 1) :=
    existsUnique_iff_fills once asked small
  refine ⟨⟨?_, ?_⟩, fun out ok => ?_, inferShape?_eq specialZero _ pattern⟩
  · rintro ⟨out, ok⟩
    obtain ⟨accepted, fills, -⟩ := (inferShape_fixed_eq_ok_iff counted).mp ok
    exact ⟨accepted, (single accepted.1).mpr fills⟩
  · rintro ⟨accepted, unique⟩
    exact ⟨_, (inferShape_fixed_eq_ok_iff counted).mpr
      ⟨accepted, (single accepted.1).mp unique, rfl⟩⟩
  · obtain ⟨⟨once, -, -, bounded⟩, fills, rfl⟩ := (inferShape_fixed_eq_ok_iff counted).mp ok
    refine ⟨_, rfl, fun size member => ?_, follows_filled _, prod_filled_workedOut once fills,
      fun other => eq_filled_of_prod once fills, elementCount_filled once bounded small fills⟩
    rcases mem_filled member with rfl | member
    · exact (Nat.div_le_self _ _).trans_lt small
    · exact asked size member

/-- Three rows of no elements: one size is copied and one, which is zero, worked out. -/
theorem reshaping_exact_empty :
    (PartialShape.fixed [3, 0, wordLimit - 1]).elementCount = .exactly 0 ∧
      (∀ size ∈ [3, 0, wordLimit - 1], size < wordLimit) ∧
      (∀ value ∈ [0, -1, (5 : Int)], value < wordLimit) ∧
      inferShape true (.fixed [3, 0, wordLimit - 1]) [0, -1, 5] = .ok (.fixed [3, 0, 5]) ∧
      (∃! shape, (∀ size ∈ shape, size < wordLimit) ∧
        Follows true [3, 0, wordLimit - 1] 0 [0, -1, 5] shape ∧ shape.prod = 0) ∧
      (PartialShape.fixed [3, 0, 5]).elementCount = .exactly 0 ∧
      inferShape? true (.fixed [3, 0, wordLimit - 1]) [0, -1, 5] =
        some (.ok (.fixed [3, 0, 5])) := by
  have counted : (PartialShape.fixed [3, 0, wordLimit - 1]).elementCount = .exactly 0 := by decide
  have fits : ∀ size ∈ [3, 0, wordLimit - 1], size < wordLimit := by decide
  have words : ∀ value ∈ [0, -1, (5 : Int)], value < wordLimit := by decide
  have ok : inferShape true (.fixed [3, 0, wordLimit - 1]) [0, -1, 5] =
      .ok (.fixed [3, 0, 5]) := rfl
  obtain ⟨accepted, shapes, unstopped⟩ := reshaping_exact true counted fits words
  obtain ⟨shape, same, -, -, -, -, count⟩ := shapes _ ok
  rw [ok] at unstopped
  exact ⟨counted, fits, words, ok, (accepted.mp ⟨_, ok⟩).2, same ▸ count, unstopped⟩

end Reshape
end TensorGraph
