import TensorGraph.Operator.InferenceError

/-!
# Reshaping

The shape that a pattern of integers gives to data of a partially known shape.
An entry of minus one is worked out from the number of elements; with special
zeros, a zero copies the dimension of the data at its place.  Where the number
of elements or some other entry is unknown, the entry of minus one stays
unknown.
-/

namespace TensorGraph.Reshape

/-- What an entry of a pattern asks for. -/
inductive Entry where
  | workedOut
  | size (dim : Dim)
  deriving DecidableEq

/-- What one entry of the pattern asks for, at its place in the pattern. -/
def entry (specialZero : Bool) (data : PartialShape) (pattern : List Int)
    (index : Nat) (value : Int) : Except InferenceError Entry :=
  if value = -1 then .ok .workedOut
  else if value = 0 ∧ specialZero then
    match data.rank? with
    | some rank =>
        if rank ≤ index then .error (.patternCopiesMissing pattern index data)
        else .ok (.size (data.dim index))
    | none => .ok (.size none)
  else if value < 0 then .error (.patternNegative pattern value)
  else .ok (.size (some value.toNat))

/-- What the entries of a pattern ask for, from a place on; at most one may be
worked out. -/
def entries (specialZero : Bool) (data : PartialShape) (pattern : List Int) :
    Nat → Bool → List Int → Except InferenceError (List Entry)
  | _, _, [] => .ok []
  | index, workedOutBefore, value :: values => do
      let first ← entry specialZero data pattern index value
      if first = .workedOut ∧ workedOutBefore then
        throw (.patternInferredTwice pattern)
      let rest ← entries specialZero data pattern (index + 1)
        (workedOutBefore || first = .workedOut) values
      return first :: rest

/-- The dimension that an entry leaves, with `inferred` for the one that is
worked out. -/
def Entry.dim (inferred : Dim) : Entry → Dim
  | .workedOut => inferred
  | .size dim => dim

/-- The sizes of the entries that are not worked out, if all are known. -/
def knownSizes? (entries : List Entry) : Option (List Nat) :=
  (entries.filter (· ≠ .workedOut)).mapM (Entry.dim none)

/-- The shape of the data after a reshape by a known pattern. -/
def inferShape (specialZero : Bool) (data : PartialShape) (pattern : List Int) :
    Except InferenceError PartialShape := do
  let entries ← entries specialZero data pattern 0 false pattern
  let withInferred (inferred : Dim) : PartialShape := .ranked (entries.map (Entry.dim inferred))
  match data.elementCount with
  | .overflow => throw (.elementCountOverflow data)
  | .unknown => return withInferred none
  | .exactly total =>
      match knownSizes? entries with
      | none => return withInferred none
      | some sizes =>
          match boundedProduct sizes with
          | none => throw (.patternOverflow pattern)
          | some known =>
              if .workedOut ∈ entries then
                if known = 0 ∨ total % known ≠ 0 then
                  throw (.patternMismatch total data pattern)
                return withInferred (some (total / known))
              else if known ≠ total then
                throw (.patternMismatch total data pattern)
              else
                return withInferred none

/-- The shape of the data after a reshape by a pattern of which only the type,
or also the values, are known. -/
def infer (specialZero : Bool) (data pattern : TensorType) (values : Option (List Int)) :
    Except InferenceError TensorType := do
  if !pattern.elementType.isDynamic && !pattern.elementType.isIntegral then
    throw (.patternElementType pattern.elementType)
  if pattern.shape.rank?.any (· ≠ 1) then
    throw (.patternRank pattern.shape)
  let shape ←
    match values with
    | some values => inferShape specialZero data.shape values
    | none =>
        match pattern.shape.dim 0 with
        | some rank => pure (.ofRank rank)
        | none => pure .unranked
  return { elementType := data.elementType, shape }

end TensorGraph.Reshape
