import Mathlib
import TensorGraph.Proofs.Merging

/-!
# Concatenation is exact

Static shapes can be put one after the other along an axis if they have one rank, which has
such an axis, and agree beside it.  Inputs whose shapes are known in part are accepted
exactly if they may have such shapes, and the shape that is inferred is the finest one that
all results match, but that a machine word holds the size along the axis.  The inputs are
followed one by one: what is joined of them fixes beside the axis what any of them fixes,
and along the axis the sum of their sizes if all of them fix one.
-/

namespace TensorGraph

/-! ### Element types -/

namespace ElementType

theorem merge_dynamic (elementType : ElementType) :
    elementType.merge dynamic = some elementType := by
  cases elementType <;> rfl

/-- What refines merged element types is what refines both. -/
theorem refines_merge {left right merged : ElementType} (merges : left.merge right = some merged)
    (finer : ElementType) : finer.Refines merged ↔ finer.Refines left ∧ finer.Refines right := by
  by_cases unknown : left = dynamic
  · subst unknown
    obtain rfl : right = merged := Option.some.inj merges
    rw [and_iff_right (refines_dynamic finer)]
  · by_cases alsoUnknown : right = dynamic
    · subst alsoUnknown
      rw [merge_dynamic, Option.some.injEq] at merges
      subst merges
      rw [and_iff_left (refines_dynamic finer)]
    · rw [merge.eq_3 left right unknown alsoUnknown] at merges
      split at merges
      next same =>
        obtain rfl : left = merged := Option.some.inj merges
        rw [same, and_self_iff]
      · cases merges

/-- Two element types merge if one refines both. -/
theorem exists_merge {finer left right : ElementType} (here : finer.Refines left)
    (there : finer.Refines right) : ∃ merged, left.merge right = some merged := by
  rcases here with rfl | rfl
  · exact ⟨right, rfl⟩
  · rcases there with rfl | rfl
    · exact ⟨finer, merge_dynamic finer⟩
    · exact ⟨finer, by cases finer <;> rfl⟩

theorem Refines.antisymm {left right : ElementType} (first : left.Refines right)
    (second : right.Refines left) : left = right := by
  rcases first with rfl | same
  · exact second.elim id Eq.symm
  · exact same

end ElementType

theorem Dim.refines_getD (dim : Dim) (filler : Nat) :
    Dim.Refines (some (dim.getD filler)) dim := by
  cases dim with
  | none => exact .unknown _
  | some size => exact .refl _

/-! ### Shapes with one dimension left open -/

namespace PartialShape

/-- The shape with nothing known of one dimension. -/
def opened (position : Nat) : PartialShape → PartialShape
  | unranked => unranked
  | ranked dims => ranked (dims.set position none)

theorem set_join_getElem? (dims : List Dim) (position : Nat) :
    dims.set position (dims[position]?).join = dims := by
  induction dims generalizing position with
  | nil => rfl
  | cons dim dims ih =>
      cases position with
      | zero => rfl
      | succ position => exact congrArg (dim :: ·) (ih position)

theorem matchesDims_set {sizes : List Nat} {dims : List Dim} (matched : MatchesDims sizes dims)
    (position : Nat) {size : Nat} {dim : Dim} (here : Dim.Refines (some size) dim) :
    MatchesDims (sizes.set position size) (dims.set position dim) := by
  rw [matchesDims_iff_refinesDims] at matched ⊢
  rw [List.map_set]
  exact matched.set position here

variable {sizes : List Nat} {shape : PartialShape} {position : Nat}

theorem matches_opened (matched : Matches sizes shape) (position size : Nat) :
    Matches (sizes.set position size) (shape.opened position) := by
  cases shape with
  | unranked => trivial
  | ranked dims => exact matchesDims_set matched position (.unknown _)

theorem matches_of_opened (matched : Matches sizes (shape.opened position)) {size : Nat}
    (here : Dim.Refines (some size) (shape.dim position)) :
    Matches (sizes.set position size) shape := by
  cases shape with
  | unranked => trivial
  | ranked dims =>
      have completed := matchesDims_set matched position here
      change MatchesDims _ ((dims.set position none).set position (dims[position]?).join)
        at completed
      rwa [List.set_set, set_join_getElem?] at completed

theorem size_of_matches (matched : Matches sizes shape) {known : Nat}
    (fixed : shape.dim position = some known) : sizes.getD position 0 = known := by
  cases shape with
  | unranked => cases fixed
  | ranked dims =>
      have refines := (matchesDims_iff_refinesDims.mp matched).getElem? position
      change (dims[position]?).join = some known at fixed
      rw [fixed] at refines
      have found := refines.resolve_left nofun
      rw [List.getElem?_map] at found
      cases sized : sizes[position]? with
      | none => rw [sized] at found; cases found
      | some size =>
          rw [sized] at found
          rw [List.getD_eq_getElem?_getD, sized]
          exact Option.some.inj found

end PartialShape

namespace Concat

open PartialShape (Matches MatchesDims RefinesDims opened)

/-! ### Static shapes one after the other -/

/-- The axis denotes a dimension of a tensor of the given rank: axes from the negated rank
up to below the rank do, the negative ones counted from the end. -/
def Denotes (axis : Int) (rank position : Nat) : Prop :=
  -(rank : Int) ≤ axis ∧ axis < rank ∧ (position : Int) = if axis < 0 then axis + rank else axis

/-- Static shapes that have one rank and agree beside one dimension, and the static shape
with their sum there. -/
structure JoinsAt (position : Nat) (parts : List (List Nat)) (whole : List Nat) : Prop where
  length : ∀ part ∈ parts, part.length = whole.length
  beside : ∀ part ∈ parts, ∀ index, index ≠ position → part[index]? = whole[index]?
  along : whole[position]? = some (parts.map (·.getD position 0)).sum

/-- The static shapes can be put one after the other along the axis, with the given
result. -/
def Concatenates (axis : Int) (parts : List (List Nat)) (whole : List Nat) : Prop :=
  ∃ position, Denotes axis whole.length position ∧ JoinsAt position parts whole

/-- Inputs of the given shapes may have static shapes with this concatenation. -/
def MayYield (axis : Int) (inputs : List PartialShape) (whole : List Nat) : Prop :=
  ∃ parts, List.Forall₂ Matches parts inputs ∧ Concatenates axis parts whole

section Static

variable {axis : Int} {rank position : Nat} {parts : List (List Nat)} {whole : List Nat}

theorem normalizeAxis_eq_ok_iff : normalizeAxis axis rank = .ok position ↔
    Denotes axis rank position := by
  rw [normalizeAxis, Denotes]
  split
  next negative =>
    split
    next beyond => exact iff_of_false (fun ok => by cases ok) (by omega)
    next within =>
      rw [Except.ok.injEq]
      omega
  next natural =>
    split
    next beyond => exact iff_of_false (fun ok => by cases ok) (by omega)
    next within =>
      rw [Except.ok.injEq]
      omega

theorem Denotes.lt (denotes : Denotes axis rank position) : position < rank :=
  lt_of_normalizeAxis (normalizeAxis_eq_ok_iff.mpr denotes)

theorem Denotes.unique {other : Nat} (denotes : Denotes axis rank position)
    (also : Denotes axis rank other) : position = other :=
  Int.ofNat.inj (denotes.2.2.trans also.2.2.symm)

/-- Every axis denotes a dimension if the rank is large enough. -/
theorem exists_denotes (axis : Int) {rank : Nat} (large : axis.natAbs < rank) :
    ∃ position, Denotes axis rank position :=
  ⟨(if axis < 0 then axis + rank else axis).toNat, by
    rw [Denotes]
    split <;> omega⟩

/-- Beside the dimension along which the parts are put together, the whole is like each of
them. -/
theorem JoinsAt.eq_set (joins : JoinsAt position parts whole) {part : List Nat}
    (member : part ∈ parts) :
    whole = part.set position (parts.map (·.getD position 0)).sum := by
  refine List.ext_getElem? fun index => ?_
  rw [List.getElem?_set]
  split
  next here =>
    subst here
    obtain ⟨within, -⟩ := List.getElem?_eq_some_iff.mp joins.along
    rw [joins.along, if_pos (joins.length part member ▸ within)]
  next elsewhere => exact (joins.beside part member index (Ne.symm elsewhere)).symm

theorem JoinsAt.perm {others : List (List Nat)} (joins : JoinsAt position parts whole)
    (permuted : parts.Perm others) : JoinsAt position others whole where
  length part member := joins.length part (permuted.mem_iff.mpr member)
  beside part member := joins.beside part (permuted.mem_iff.mpr member)
  along := by rw [joins.along, (permuted.map _).sum_eq]

theorem MayYield.perm {inputs others : List PartialShape} (yields : MayYield axis inputs whole)
    (permuted : inputs.Perm others) : MayYield axis others whole := by
  obtain ⟨parts, chosen, position, denotes, joins⟩ := yields
  obtain ⟨moved, matched, same⟩ :=
    List.perm_comp_forall₂ permuted.symm (List.Forall₂.flip chosen)
  exact ⟨moved, matched.flip, position, denotes, joins.perm same.symm⟩

end Static

/-! ### The sum along the axis -/

/-- The sum of sizes, known only if all of them are. -/
def sumDims (dims : List Dim) : Dim :=
  dims.foldl (Option.map₂ (· + ·)) (some 0)

/-- A size as it is left in a machine word. -/
def wrap (dim : Dim) : Dim :=
  dim.map (· % wordLimit)

section Sums

variable {dims : List Dim}

theorem sumDims_append (dims : List Dim) (dim : Dim) :
    sumDims (dims ++ [dim]) = Option.map₂ (· + ·) (sumDims dims) dim := by
  rw [sumDims, List.foldl_append]
  rfl

theorem addDims_wrap (sum dim : Dim) :
    addDims (wrap sum) dim = wrap (Option.map₂ (· + ·) sum dim) := by
  cases sum with
  | none => rfl
  | some sum =>
      cases dim with
      | none => rfl
      | some size => exact congrArg some (Nat.mod_add_mod sum wordLimit size)

/-- A sum is known only if all sizes are. -/
theorem exists_sizes_of_sumDims {total : Nat} (known : sumDims dims = some total) :
    ∃ sizes : List Nat, dims = sizes.map some ∧ total = sizes.sum := by
  induction dims using List.reverseRecOn generalizing total with
  | nil => exact ⟨[], rfl, (Option.some.inj known).symm⟩
  | append_singleton dims dim ih =>
      rw [sumDims_append] at known
      cases before : sumDims dims with
      | none => rw [before] at known; cases known
      | some sum =>
          cases dim with
          | none => rw [before] at known; cases known
          | some size =>
              rw [before] at known
              obtain rfl : sum + size = total := Option.some.inj known
              obtain ⟨sizes, rfl, rfl⟩ := ih before
              exact ⟨sizes ++ [size], by simp, by simp⟩

theorem ne_none_of_sumDims {total : Nat} (known : sumDims dims = some total) {dim : Dim}
    (member : dim ∈ dims) : dim ≠ none := by
  obtain ⟨sizes, rfl, -⟩ := exists_sizes_of_sumDims known
  obtain ⟨size, -, rfl⟩ := List.mem_map.mp member
  exact Option.some_ne_none size

/-- A known sum is that of the sizes, whatever stands for the unknown ones. -/
theorem sum_of_sumDims {total : Nat} (known : sumDims dims = some total) (filler : Nat) :
    (dims.map (·.getD filler)).sum = total := by
  obtain ⟨sizes, rfl, rfl⟩ := exists_sizes_of_sumDims known
  simp [Function.comp_def]

/-- Where a sum is unknown, it depends on the sizes that are. -/
theorem sum_lt_of_sumDims (unknown : sumDims dims = none) :
    (dims.map (·.getD 0)).sum < (dims.map (·.getD 1)).sum := by
  have smaller (dim : Dim) : dim.getD 0 ≤ dim.getD 1 := by cases dim <;> simp
  induction dims using List.reverseRecOn with
  | nil => cases unknown
  | append_singleton dims dim ih =>
      simp only [List.map_append, List.sum_append, List.map_cons, List.map_nil, List.sum_cons,
        List.sum_nil, Nat.add_zero]
      rw [sumDims_append] at unknown
      cases before : sumDims dims with
      | none => exact Nat.add_lt_add_of_lt_of_le (ih before) (smaller dim)
      | some sum =>
          cases dim with
          | none =>
              rw [sum_of_sumDims before 0, sum_of_sumDims before 1]
              exact Nat.lt_succ_self sum
          | some size => rw [before] at unknown; cases unknown

/-- A sum that no unknown size can change is known. -/
theorem sumDims_eq_some {total : Nat} (same : ∀ filler, (dims.map (·.getD filler)).sum = total) :
    sumDims dims = some total := by
  cases sum : sumDims dims with
  | none =>
      have differs := sum_lt_of_sumDims sum
      rw [same 0, same 1] at differs
      exact absurd differs (Nat.lt_irrefl total)
  | some known => rw [← sum_of_sumDims sum 0, same 0]

end Sums

/-! ### What is joined of the inputs -/

section Joining

variable {axis : Int} {inputs : List PartialShape} {joined : Joined}

/-- What is joined of inputs: nothing but the sum as long as none has a known rank; then
what all of them are like beside the axis. -/
structure Joined.Sums (axis : Int) (inputs : List PartialShape) (joined : Joined) : Prop where
  unframed : joined.frame = .none → ∀ input ∈ inputs, input = .unranked
  framed : ∀ position merged, joined.frame = some (position, merged) →
    Denotes axis merged.length position ∧
      (∃ dims, .ranked dims ∈ inputs ∧ dims.length = merged.length) ∧
      ∀ sizes, MatchesDims sizes merged ↔ ∀ input ∈ inputs, Matches sizes (input.opened position)
  total : ∀ position, (∀ place merged, joined.frame = some (place, merged) → place = position) →
    joined.total = wrap (sumDims (inputs.map (·.dim position)))

theorem Joined.sums_none : Joined.Sums axis [] Joined.none where
  unframed _ input member := absurd member List.not_mem_nil
  framed _ _ known := by cases known
  total _ _ := rfl

theorem Joined.Sums.total_of_framed {position : Nat} {merged : List Dim}
    (sums : joined.Sums axis inputs) (known : joined.frame = some (position, merged)) :
    joined.total = wrap (sumDims (inputs.map (·.dim position))) :=
  sums.total position fun _ _ found =>
    (Prod.mk.inj (Option.some.inj (found.symm.trans known))).1

theorem Joined.Sums.matches_of_unframed (sums : joined.Sums axis inputs)
    (first : joined.frame = .none) (sizes : List Nat) (position : Nat) :
    ∀ input ∈ inputs, Matches sizes (input.opened position) := by
  intro input member
  rw [sums.unframed first input member]
  trivial

theorem Joined.Sums.total_of_takes {position : Nat} {dims merged : List Dim}
    (sums : joined.Sums axis inputs) (takes : joined.Takes position dims merged) :
    joined.total = wrap (sumDims (inputs.map (·.dim position))) := by
  cases takes with
  | opens first =>
      exact sums.total position fun place frame known => by rw [first] at known; cases known
  | merges known _ => exact sums.total_of_framed known

/-- Beside the axis, dimensions that are taken in leave what they and the inputs so far
leave. -/
theorem Joined.Sums.matchesDims_iff {position : Nat} {dims merged : List Dim}
    (sums : joined.Sums axis inputs) (takes : joined.Takes position dims merged)
    (sizes : List Nat) :
    MatchesDims sizes merged ↔
      (∀ input ∈ inputs, Matches sizes (input.opened position)) ∧
        MatchesDims sizes (dims.set position .none) := by
  cases takes with
  | opens first => exact (and_iff_right (sums.matches_of_unframed first sizes position)).symm
  | merges known merges =>
      rw [PartialShape.matchesDims_mergeDims merges, (sums.framed position _ known).2.2 sizes]

/-- Adding an input keeps account of it. -/
theorem Joined.Sums.add {after : Joined} {input : PartialShape} (sums : joined.Sums axis inputs)
    (ok : joined.add axis input = .ok after) : after.Sums axis (inputs ++ [input]) := by
  cases input with
  | unranked =>
      obtain rfl : { joined with total := .none } = after := Except.ok.inj ok
      refine ⟨fun first input member => ?_, fun position merged known => ?_,
        fun position same => ?_⟩
      · rcases List.mem_append.mp member with member | member
        · exact sums.unframed first input member
        · exact List.mem_singleton.mp member
      · obtain ⟨denotes, ⟨dims, member, lengths⟩, exact⟩ := sums.framed position merged known
        refine ⟨denotes, ⟨dims, List.mem_append_left _ member, lengths⟩, fun sizes => ?_⟩
        rw [exact sizes, List.forall_mem_append, List.forall_mem_singleton]
        exact (and_iff_left trivial).symm
      · rw [List.map_append, List.map_singleton, sumDims_append]
        cases sumDims (inputs.map (·.dim position)) <;> rfl
  | ranked dims =>
      obtain ⟨position, merged, normal, takes, rfl⟩ := exists_takes
        (fun place frame known => normalizeAxis_eq_ok_iff.mpr (sums.framed place frame known).1) ok
      have length_eq : dims.length = merged.length := by
        rw [takes.refines.length_eq, List.length_set]
      refine ⟨nofun, fun place others known => ?_, fun place same => ?_⟩
      · obtain ⟨rfl, rfl⟩ := Prod.mk.inj (Option.some.inj known)
        refine ⟨length_eq ▸ normalizeAxis_eq_ok_iff.mp normal,
          ⟨dims, List.mem_append_right _ (List.mem_singleton_self _), length_eq⟩, fun sizes => ?_⟩
        rw [sums.matchesDims_iff takes sizes, List.forall_mem_append, List.forall_mem_singleton]
        rfl
      · obtain rfl := same position merged rfl
        rw [List.map_append, List.map_singleton, sumDims_append, ← addDims_wrap,
          ← sums.total_of_takes takes]
        rfl

theorem Joined.Sums.foldlM {earlier : List PartialShape} {after : Joined}
    (sums : joined.Sums axis earlier) (ok : inputs.foldlM (Joined.add axis) joined = .ok after) :
    after.Sums axis (earlier ++ inputs) := by
  induction inputs generalizing earlier joined with
  | nil =>
      obtain rfl := Except.ok.inj ok
      rwa [List.append_nil]
  | cons input inputs ih =>
      rw [List.foldlM_cons] at ok
      obtain ⟨between, added, ended⟩ := exists_of_bind_eq_ok ok
      simpa using ih (sums.add added) ended

/-- What is joined so far is like the static shape beside the axis. -/
def Joined.Leaves (joined : Joined) (position : Nat) (whole : List Nat) : Prop :=
  ∀ place merged, joined.frame = some (place, merged) →
    place = position ∧ MatchesDims whole merged

/-- An input that may be like the static shape beside the axis is not refused. -/
theorem Joined.Leaves.exists_add {position : Nat} {whole : List Nat}
    (leaves : joined.Leaves position whole) (denotes : Denotes axis whole.length position)
    {input : PartialShape} (matched : Matches whole (input.opened position)) :
    ∃ after, joined.add axis input = .ok after ∧ after.Leaves position whole := by
  cases input with
  | unranked => exact ⟨_, rfl, leaves⟩
  | ranked dims =>
      have length_eq : whole.length = dims.length := by
        simpa using PartialShape.length_of_matchesDims matched
      obtain ⟨merged, takes, matchedMerged⟩ : ∃ merged,
          joined.Takes position dims merged ∧ MatchesDims whole merged := by
        cases known : joined.frame with
        | none => exact ⟨_, .opens known, matched⟩
        | some placedFrame =>
            obtain ⟨rfl, matchedFrame⟩ := leaves _ _ known
            obtain ⟨merged, merges⟩ := PartialShape.exists_mergeDims matchedFrame matched
            exact ⟨merged, .merges known merges,
              (PartialShape.matchesDims_mergeDims merges whole).mpr ⟨matchedFrame, matched⟩⟩
      have normal := normalizeAxis_eq_ok_iff.mpr (length_eq ▸ denotes)
      refine ⟨_, add_of_takes normal takes, fun place others known => ?_⟩
      obtain ⟨rfl, rfl⟩ := Prod.mk.inj (Option.some.inj known)
      exact ⟨rfl, matchedMerged⟩

theorem Joined.Leaves.exists_foldlM {position : Nat} {whole : List Nat}
    (leaves : joined.Leaves position whole) (denotes : Denotes axis whole.length position)
    (matched : ∀ input ∈ inputs, Matches whole (input.opened position)) :
    ∃ after, inputs.foldlM (Joined.add axis) joined = .ok after := by
  induction inputs generalizing joined with
  | nil => exact ⟨joined, rfl⟩
  | cons input inputs ih =>
      obtain ⟨here, rest⟩ := List.forall_mem_cons.mp matched
      obtain ⟨between, added, leavesBetween⟩ := leaves.exists_add denotes here
      obtain ⟨after, ended⟩ := ih leavesBetween rest
      exact ⟨after, by rw [List.foldlM_cons, added]; exact ended⟩

end Joining

/-! ### The finest result -/

section Results

variable {axis : Int} {inputs : List PartialShape} {joined : Joined} {whole : List Nat}

/-- Sizes that the inputs may have beside the axis become the sizes of a result, with any
size along the axis for the inputs that do not know theirs. -/
theorem mayYield_set {sizes : List Nat} {position : Nat}
    (denotes : Denotes axis sizes.length position)
    (opens : ∀ input ∈ inputs, Matches sizes (input.opened position)) (filler : Nat) :
    MayYield axis inputs
      (sizes.set position ((inputs.map (·.dim position)).map (·.getD filler)).sum) := by
  refine ⟨inputs.map fun input => sizes.set position ((input.dim position).getD filler),
    ?_, position, by rwa [List.length_set], ?_, ?_, ?_⟩
  · rw [List.forall₂_map_left_iff, List.forall₂_same]
    exact fun input member =>
      PartialShape.matches_of_opened (opens input member) (Dim.refines_getD _ filler)
  · intro part member
    obtain ⟨input, -, rfl⟩ := List.mem_map.mp member
    simp
  · intro part member index elsewhere
    obtain ⟨input, -, rfl⟩ := List.mem_map.mp member
    rw [List.getElem?_set_ne elsewhere.symm, List.getElem?_set_ne elsewhere.symm]
  · rw [List.getElem?_set_self denotes.lt, List.map_map, List.map_map]
    congr 2
    exact List.map_congr_left fun input _ => by simp [denotes.lt]

/-- Something is left for the inputs together, whatever is joined of them. -/
theorem Joined.Sums.exists_sizes (sums : joined.Sums axis inputs) :
    ∃ sizes position, Denotes axis sizes.length position ∧
      ∀ input ∈ inputs, Matches sizes (input.opened position) := by
  cases known : joined.frame with
  | none =>
      obtain ⟨position, denotes⟩ := exists_denotes axis (Nat.lt_succ_self _)
      exact ⟨List.replicate _ 0, position, by rwa [List.length_replicate],
        sums.matches_of_unframed known _ position⟩
  | some placedFrame =>
      obtain ⟨position, merged⟩ := placedFrame
      obtain ⟨denotes, -, exact⟩ := sums.framed position merged known
      have least := PartialShape.matchesDims_least merged
      exact ⟨_, position, by rwa [PartialShape.length_of_matchesDims least],
        (exact _).mp least⟩

theorem exists_part {parts : List (List Nat)} (chosen : List.Forall₂ Matches parts inputs)
    {input : PartialShape} (member : input ∈ inputs) : ∃ part ∈ parts, Matches part input := by
  induction chosen with
  | nil => exact absurd member List.not_mem_nil
  | cons here rest ih =>
      rcases List.mem_cons.mp member with rfl | member
      · exact ⟨_, List.mem_cons_self, here⟩
      · obtain ⟨part, found, matched⟩ := ih member
        exact ⟨part, List.mem_cons_of_mem _ found, matched⟩

theorem JoinsAt.matches_opened {parts : List (List Nat)} {position : Nat}
    (joins : JoinsAt position parts whole) (chosen : List.Forall₂ Matches parts inputs) :
    ∀ input ∈ inputs, Matches whole (input.opened position) := by
  intro input member
  obtain ⟨part, found, matched⟩ := exists_part chosen member
  rw [joins.eq_set found]
  exact PartialShape.matches_opened matched _ _

/-- Where all inputs know their sizes along the axis, static shapes that match them add up
to the sum. -/
theorem sum_of_chosen {parts : List (List Nat)} (chosen : List.Forall₂ Matches parts inputs)
    {position total : Nat} (known : sumDims (inputs.map (·.dim position)) = some total) :
    (parts.map (·.getD position 0)).sum = total := by
  obtain ⟨sizes, same, rfl⟩ := exists_sizes_of_sumDims known
  clear known
  induction chosen generalizing sizes with
  | nil =>
      obtain rfl : sizes = [] := by simpa using same
      rfl
  | cons here rest ih =>
      cases sizes with
      | nil => cases same
      | cons size sizes =>
          obtain ⟨fixed, sameRest⟩ := List.cons.inj same
          rw [List.map_cons, List.sum_cons, List.sum_cons,
            PartialShape.size_of_matches here fixed, ih sizes sameRest]

/-- Where every input knows its size along the axis, these add up within the machine word. -/
def Fits (axis : Int) (inputs : List PartialShape) : Prop :=
  ∀ dims, .ranked dims ∈ inputs → ∀ position, Denotes axis dims.length position →
    (∀ input ∈ inputs, input.dim position ≠ none) →
      ((inputs.map (·.dim position)).map (·.getD 0)).sum < wordLimit

/-- The shape of what is joined of the inputs, with the size that they have along the axis
whether or not it fits into a machine word. -/
def Joined.fullShape (joined : Joined) (inputs : List PartialShape) : PartialShape :=
  match joined.frame with
  | .none => .unranked
  | some (position, merged) =>
      .ranked (merged.set position (sumDims (inputs.map (·.dim position))))

/-- The shape whose size along the axis is left in a machine word. -/
def wrapAlong (axis : Int) : PartialShape → PartialShape
  | .unranked => .unranked
  | .ranked dims =>
      match normalizeAxis axis dims.length with
      | .ok position => .ranked (dims.modify position wrap)
      | .error _ => .ranked dims

/-- The sizes along the axis are added up in a machine word. -/
theorem Joined.Sums.shape_eq (sums : joined.Sums axis inputs) :
    joined.shape = wrapAlong axis (joined.fullShape inputs) := by
  rw [Joined.shape, Joined.fullShape]
  cases known : joined.frame with
  | none => rfl
  | some placedFrame =>
      obtain ⟨position, merged⟩ := placedFrame
      have denotes := (sums.framed position merged known).1
      have normal := normalizeAxis_eq_ok_iff.mpr denotes
      dsimp only
      rw [wrapAlong, List.length_set, normal, sums.total_of_framed known]
      dsimp only
      rw [List.modify_eq_set_getElem?, List.getElem?_set_self denotes.lt]
      simp

/-- Where the sizes along the axis fit, they are added up in full. -/
theorem Joined.Sums.shape_of_fits (sums : joined.Sums axis inputs) (fits : Fits axis inputs) :
    joined.shape = joined.fullShape inputs := by
  rw [Joined.shape, Joined.fullShape]
  cases known : joined.frame with
  | none => rfl
  | some placedFrame =>
      obtain ⟨position, merged⟩ := placedFrame
      obtain ⟨denotes, ⟨dims, member, lengths⟩, -⟩ := sums.framed position merged known
      dsimp only
      rw [sums.total_of_framed known]
      cases sum : sumDims (inputs.map (·.dim position)) with
      | none => rfl
      | some total =>
          have below := fits dims member position (lengths.symm ▸ denotes) fun _ given =>
            ne_none_of_sumDims sum (List.mem_map_of_mem given)
          rw [sum_of_sumDims sum 0] at below
          rw [wrap, Option.map_some, Nat.mod_eq_of_lt below]

/-- Every result matches the full shape of what is joined. -/
theorem Joined.Sums.matches_fullShape (sums : joined.Sums axis inputs)
    (yields : MayYield axis inputs whole) : Matches whole (joined.fullShape inputs) := by
  rw [Joined.fullShape]
  cases known : joined.frame with
  | none => trivial
  | some placedFrame =>
      obtain ⟨place, merged⟩ := placedFrame
      obtain ⟨parts, chosen, position, denotes, joins⟩ := yields
      obtain ⟨denotesMerged, ⟨dims, member, lengths⟩, exact⟩ := sums.framed place merged known
      have length_eq : whole.length = merged.length := by
        obtain ⟨part, found, matched⟩ := exists_part chosen member
        rw [← joins.length part found, PartialShape.length_of_matchesDims matched, lengths]
      obtain rfl : place = position := denotesMerged.unique (length_eq ▸ denotes)
      have matchedMerged : MatchesDims whole merged :=
        (exact whole).mpr (joins.matches_opened chosen)
      have along : Dim.Refines (some (parts.map (·.getD place 0)).sum)
          (sumDims (inputs.map (·.dim place))) := by
        cases total : sumDims (inputs.map (·.dim place)) with
        | none => exact .unknown _
        | some size => exact Or.inr (congrArg some (sum_of_chosen chosen total))
      have completed := PartialShape.matchesDims_set matchedMerged place along
      obtain ⟨within, sum⟩ := List.getElem?_eq_some_iff.mp joins.along
      rwa [← sum, List.set_getElem_self] at completed

/-- Inputs of no known rank may have results of any rank that has the axis. -/
theorem Joined.Sums.exists_result_of_unframed (sums : joined.Sums axis inputs)
    (first : joined.frame = .none) {rank : Nat} (large : axis.natAbs < rank) :
    ∃ whole, MayYield axis inputs whole ∧ whole.length = rank := by
  obtain ⟨position, denotes⟩ := exists_denotes axis large
  have opens := sums.matches_of_unframed first (List.replicate rank 0) position
  exact ⟨_, mayYield_set (by rwa [List.length_replicate]) opens 0, by simp⟩

section Framed

variable {position : Nat} {merged others : List Dim}

theorem Joined.Sums.mayYield (sums : joined.Sums axis inputs)
    (known : joined.frame = some (position, merged)) {sizes : List Nat}
    (matched : MatchesDims sizes merged) (filler : Nat) :
    MayYield axis inputs
      (sizes.set position ((inputs.map (·.dim position)).map (·.getD filler)).sum) := by
  obtain ⟨denotes, -, exact⟩ := sums.framed position merged known
  exact mayYield_set (by rwa [PartialShape.length_of_matchesDims matched])
    ((exact sizes).mp matched) filler

/-- Beside the axis, what is joined refines any sizes that every result matches. -/
theorem Joined.Sums.beside_refines (sums : joined.Sums axis inputs)
    (known : joined.frame = some (position, merged))
    (all : ∀ whole, MayYield axis inputs whole → MatchesDims whole others) :
    RefinesDims merged (others.set position .none) := by
  refine PartialShape.refinesDims_of_matches fun sizes matched => ?_
  have within : position < sizes.length := by
    rw [PartialShape.length_of_matchesDims matched]
    exact (sums.framed position merged known).1.lt
  have opened := PartialShape.matchesDims_set (all _ (sums.mayYield known matched 0)) position
    (.unknown (some sizes[position]))
  rwa [List.set_set, List.set_getElem_self] at opened

/-- Along the axis, the sum refines any size that every result has. -/
theorem Joined.Sums.along_refines (sums : joined.Sums axis inputs)
    (known : joined.frame = some (position, merged))
    (all : ∀ whole, MayYield axis inputs whole → MatchesDims whole others) :
    Dim.Refines (sumDims (inputs.map (·.dim position))) (others[position]?).join := by
  cases fixed : (others[position]?).join with
  | none => exact .unknown _
  | some size =>
      have within := (sums.framed position merged known).1.lt
      refine Or.inr (sumDims_eq_some fun filler => ?_)
      have least := PartialShape.matchesDims_least merged
      have matched : Matches _ (.ranked others) := all _ (sums.mayYield known least filler)
      simpa [within] using PartialShape.size_of_matches matched fixed

end Framed

/-- The full shape of what is joined refines any shape that every result matches. -/
theorem Joined.Sums.fullShape_refines (sums : joined.Sums axis inputs) {other : PartialShape}
    (all : ∀ whole, MayYield axis inputs whole → Matches whole other) :
    (joined.fullShape inputs).Refines other := by
  cases other with
  | unranked => exact PartialShape.refines_unranked _
  | ranked others =>
      rw [Joined.fullShape]
      cases known : joined.frame with
      | none =>
          have rank_eq (rank : Nat) (large : axis.natAbs < rank) : rank = others.length := by
            obtain ⟨whole, yields, rfl⟩ := sums.exists_result_of_unframed known large
            exact PartialShape.length_of_matchesDims (all _ yields)
          have first := rank_eq (axis.natAbs + 1) (by omega)
          have second := rank_eq (axis.natAbs + 2) (by omega)
          omega
      | some placedFrame =>
          obtain ⟨position, merged⟩ := placedFrame
          have completed := (sums.beside_refines known all).set position
            (sums.along_refines known all)
          rwa [List.set_set, PartialShape.set_join_getElem?] at completed

end Results

/-! ### Element types and shapes together -/

section Types

variable {axis : Int} {inputs others : List TensorType} {type : TensorType}

theorem refines_mergeElementTypes {merged result : ElementType}
    (ok : mergeElementTypes merged inputs = .ok result) (finer : ElementType) :
    finer.Refines result ↔
      finer.Refines merged ∧ ∀ input ∈ inputs, finer.Refines input.elementType := by
  induction inputs generalizing merged with
  | nil =>
      obtain rfl : merged = result := Except.ok.inj ok
      simp
  | cons input inputs ih =>
      rw [mergeElementTypes] at ok
      split at ok
      · cases ok
      next next merges =>
        rw [ih ok, ElementType.refines_merge merges, List.forall_mem_cons, and_assoc]

theorem exists_mergeElementTypes {finer merged : ElementType} (here : finer.Refines merged)
    (there : ∀ input ∈ inputs, finer.Refines input.elementType) :
    ∃ result, mergeElementTypes merged inputs = .ok result := by
  induction inputs generalizing merged with
  | nil => exact ⟨merged, rfl⟩
  | cons input inputs ih =>
      obtain ⟨first, rest⟩ := List.forall_mem_cons.mp there
      obtain ⟨next, merges⟩ := ElementType.exists_merge here first
      obtain ⟨result, ok⟩ := ih ((ElementType.refines_merge merges finer).mpr ⟨here, first⟩) rest
      exact ⟨result, by rw [mergeElementTypes, merges]; exact ok⟩

theorem infer_eq_ok_iff : infer axis inputs = .ok type ↔
    inputs ≠ [] ∧ ∃ elementType joined, mergeElementTypes .dynamic inputs = .ok elementType ∧
      (inputs.map (·.shape)).foldlM (Joined.add axis) Joined.none = .ok joined ∧
      type = { elementType, shape := joined.shape } := by
  rw [infer]
  cases inputs with
  | nil => exact iff_of_false (fun ok => by cases ok) fun both => both.1 rfl
  | cons input inputs =>
      rw [List.isEmpty_cons, and_iff_right (List.cons_ne_nil input inputs)]
      constructor
      · intro ok
        obtain ⟨elementType, merged, ok⟩ := exists_of_bind_eq_ok ok
        obtain ⟨joined, added, ok⟩ := exists_of_bind_eq_ok ok
        exact ⟨elementType, joined, merged, added, (Except.ok.inj ok).symm⟩
      · rintro ⟨elementType, joined, merged, added, rfl⟩
        rw [merged, added]
        rfl

/-- The finest type for everything that the inputs may become together: its element type is
the coarsest that refines all of theirs, its shape the finest that all results match. -/
structure IsFinest (axis : Int) (inputs : List TensorType) (type : TensorType) : Prop where
  elementType : ∀ finer : ElementType, finer.Refines type.elementType ↔
    ∀ input ∈ inputs, finer.Refines input.elementType
  matched : ∀ whole, MayYield axis (inputs.map (·.shape)) whole → Matches whole type.shape
  finest : ∀ shape : PartialShape,
    (∀ whole, MayYield axis (inputs.map (·.shape)) whole → Matches whole shape) →
      type.shape.Refines shape

theorem IsFinest.unique {other : TensorType} (finest : IsFinest axis inputs type)
    (also : IsFinest axis inputs other) : type = other := by
  have element : type.elementType = other.elementType :=
    ((also.elementType _).mpr ((finest.elementType _).mp (.refl _))).antisymm
      ((finest.elementType _).mpr ((also.elementType _).mp (.refl _)))
  have shape : type.shape = other.shape :=
    (finest.finest _ also.matched).antisymm (also.finest _ finest.matched)
  cases type
  cases other
  exact congr (congrArg TensorType.mk element) shape

theorem IsFinest.perm (finest : IsFinest axis inputs type) (permuted : inputs.Perm others) :
    IsFinest axis others type where
  elementType finer := by
    rw [finest.elementType]
    exact forall_congr' fun input => by rw [permuted.mem_iff]
  matched whole yields := finest.matched whole (yields.perm (permuted.map _).symm)
  finest shape all := finest.finest shape fun whole yields =>
    all whole (yields.perm (permuted.map _))

/-- What is inferred is the finest type, but for a size along the axis that does not fit. -/
theorem exists_isFinest_of_infer (ok : infer axis inputs = .ok type) :
    ∃ finest, IsFinest axis inputs finest ∧
      type = { finest with shape := wrapAlong axis finest.shape } ∧
      (Fits axis (inputs.map (·.shape)) → type = finest) := by
  obtain ⟨-, elementType, joined, merged, added, rfl⟩ := infer_eq_ok_iff.mp ok
  have sums : joined.Sums axis (inputs.map (·.shape)) := Joined.sums_none.foldlM added
  refine ⟨{ elementType, shape := joined.fullShape (inputs.map (·.shape)) },
    ⟨fun finer => ?_, fun _ => sums.matches_fullShape, fun _ => sums.fullShape_refines⟩, ?_,
    fun fits => ?_⟩
  · rw [refines_mergeElementTypes merged, and_iff_right (ElementType.refines_dynamic finer)]
  · rw [sums.shape_eq]
  · rw [sums.shape_of_fits fits]

/-- A type is inferred exactly if there are inputs, some element type refines all of theirs
and they may have a result. -/
theorem exists_infer_iff : (∃ type, infer axis inputs = .ok type) ↔
    inputs ≠ [] ∧
    (∃ elementType : ElementType, ∀ input ∈ inputs, elementType.Refines input.elementType) ∧
    ∃ whole, MayYield axis (inputs.map (·.shape)) whole := by
  constructor
  · rintro ⟨type, ok⟩
    obtain ⟨given, elementType, joined, merged, added, -⟩ := infer_eq_ok_iff.mp ok
    have sums : joined.Sums axis (inputs.map (·.shape)) := Joined.sums_none.foldlM added
    obtain ⟨sizes, position, denotes, opens⟩ := sums.exists_sizes
    exact ⟨given, ⟨elementType, ((refines_mergeElementTypes merged _).mp (.refl _)).2⟩,
      _, mayYield_set denotes opens 0⟩
  · rintro ⟨given, ⟨elementType, refines⟩, whole, parts, chosen, position, denotes, joins⟩
    obtain ⟨merged, mergedOk⟩ :=
      exists_mergeElementTypes (ElementType.refines_dynamic elementType) refines
    have leaves : Joined.none.Leaves position whole := nofun
    obtain ⟨joined, added⟩ := leaves.exists_foldlM denotes (joins.matches_opened chosen)
    exact ⟨_, infer_eq_ok_iff.mpr ⟨given, merged, joined, mergedOk, added, rfl⟩⟩

/-- The order of the inputs is of no importance. -/
theorem infer_perm (permuted : inputs.Perm others) (ok : infer axis inputs = .ok type) :
    infer axis others = .ok type := by
  obtain ⟨given, ⟨elementType, refines⟩, whole, yields⟩ := exists_infer_iff.mp ⟨type, ok⟩
  obtain ⟨other, otherOk⟩ : ∃ other, infer axis others = .ok other := by
    refine exists_infer_iff.mpr ⟨fun empty => given ?_, ⟨elementType, fun input member => ?_⟩,
      whole, yields.perm (permuted.map _)⟩
    · rwa [empty, List.perm_nil] at permuted
    · exact refines input (permuted.mem_iff.mpr member)
  obtain ⟨finest, isFinest, wrapped, -⟩ := exists_isFinest_of_infer ok
  obtain ⟨same, isSame, otherWrapped, -⟩ := exists_isFinest_of_infer otherOk
  rw [otherOk, otherWrapped, wrapped, isSame.unique (isFinest.perm permuted)]

end Types

end Concat

namespace Operator

theorem infer_concat_eq_ok_iff {axis : Int} {operands : List Operand} {types : List TensorType} :
    (concat axis).infer operands = .ok types ↔
      ∃ type, Concat.infer axis (operands.map (·.type)) = .ok type ∧ types = [type] := by
  rw [infer]
  cases Concat.infer axis (operands.map (·.type)) <;>
    simp [bind, Except.bind, pure, Except.pure, eq_comm]

/-- Inputs are put one after the other exactly if there are any, some element type refines
all of theirs and static shapes that match theirs can be put one after the other.  The type
that is inferred is the finest for all such choices, where the sizes along the axis add up within
the machine word; otherwise it is that type with as much of the sum as the word holds.  The order
of the inputs is of no importance. -/
theorem concatenation_exact (axis : Int) (operands : List Operand) :
    ((∃ types, (concat axis).infer operands = .ok types) ↔
      operands ≠ [] ∧
      (∃ elementType : ElementType,
        ∀ operand ∈ operands, elementType.Refines operand.type.elementType) ∧
      ∃ whole, Concat.MayYield axis (operands.map (·.type.shape)) whole) ∧
    (∀ types, (concat axis).infer operands = .ok types →
      ∃ finest, Concat.IsFinest axis (operands.map (·.type)) finest ∧
        types = [{ finest with shape := Concat.wrapAlong axis finest.shape }] ∧
        (Concat.Fits axis (operands.map (·.type.shape)) → types = [finest])) ∧
    ∀ others, operands.Perm others → ∀ types,
      (concat axis).infer others = .ok types ↔ (concat axis).infer operands = .ok types := by
  refine ⟨?_, fun types ok => ?_, fun others permuted types => ?_⟩
  · have inferred : (∃ types, (concat axis).infer operands = .ok types) ↔
        ∃ type, Concat.infer axis (operands.map (·.type)) = .ok type := by
      constructor
      · rintro ⟨types, ok⟩
        obtain ⟨type, inferred, -⟩ := infer_concat_eq_ok_iff.mp ok
        exact ⟨type, inferred⟩
      · rintro ⟨type, inferred⟩
        exact ⟨[type], infer_concat_eq_ok_iff.mpr ⟨type, inferred, rfl⟩⟩
    rw [inferred, Concat.exists_infer_iff, List.map_map, Ne, List.map_eq_nil_iff]
    simp only [List.forall_mem_map, Function.comp_def, Ne]
  · obtain ⟨type, inferred, rfl⟩ := infer_concat_eq_ok_iff.mp ok
    obtain ⟨finest, isFinest, wrapped, full⟩ := Concat.exists_isFinest_of_infer inferred
    refine ⟨finest, isFinest, congrArg ([·]) wrapped, fun fits => congrArg ([·]) (full ?_)⟩
    rwa [List.map_map]
  · rw [infer_concat_eq_ok_iff, infer_concat_eq_ok_iff]
    have types := permuted.map (·.type)
    exact exists_congr fun type => and_congr_left fun _ =>
      ⟨Concat.infer_perm types.symm, Concat.infer_perm types⟩

/-- Two inputs of which one does not know its number of rows and the other not its element
type. -/
def halfKnown : List Operand :=
  [{ type := { elementType := .f32, shape := .ranked [none, some 4] }, values := none },
    { type := { elementType := .dynamic, shape := .ranked [some 2, some 3] }, values := none }]

theorem concatenation_exact_halfKnown :
    (concat (-1)).infer halfKnown = .ok [{ elementType := .f32, shape := .fixed [2, 7] }] ∧
      (∃ whole, Concat.MayYield (-1) (halfKnown.map (·.type.shape)) whole) ∧
      Concat.IsFinest (-1) (halfKnown.map (·.type))
        { elementType := .f32, shape := .fixed [2, 7] } ∧
      halfKnown.Perm halfKnown.reverse ∧
      (concat (-1)).infer halfKnown.reverse =
        .ok [{ elementType := .f32, shape := .fixed [2, 7] }] := by
  have ok : (concat (-1)).infer halfKnown =
      .ok [{ elementType := .f32, shape := .fixed [2, 7] }] := rfl
  have permuted : halfKnown.Perm halfKnown.reverse := (List.reverse_perm halfKnown).symm
  have fits : Concat.Fits (-1) (halfKnown.map (·.type.shape)) := by
    intro dims member position denotes known
    have two : dims.length = 2 := by
      rcases List.mem_cons.mp member with first | member
      · cases first
        rfl
      · cases List.mem_singleton.mp member
        rfl
    obtain rfl : position = 1 := by
      obtain ⟨-, -, place⟩ := denotes
      rw [two] at place
      exact Int.ofNat.inj place
    decide
  obtain ⟨accepted, answers, orders⟩ := concatenation_exact (-1) halfKnown
  obtain ⟨type, isFinest, -, full⟩ := answers _ ok
  obtain rfl := List.singleton_inj.mp (full fits)
  exact ⟨ok, (accepted.mp ⟨_, ok⟩).2.2, isFinest, permuted, (orders _ permuted _).mpr ok⟩

end Operator
end TensorGraph
