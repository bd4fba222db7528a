import TensorGraph.Operator.InferenceError

/-!
# Concatenation

The type of several tensors put one after the other along an axis: their
element types merge, their sizes along the axis add up, and all their other
dimensions merge.  An input of unknown rank leaves the size along the axis
unknown; the first input of known rank fixes the axis.
-/

namespace TensorGraph.Concat

/-- The dimension that an axis denotes in a tensor of the given rank; negative
axes count from the end. -/
def normalizeAxis (axis : Int) (rank : Nat) : Except InferenceError Nat :=
  let position := if axis < 0 then axis + rank else axis
  if position < 0 ∨ (rank : Int) ≤ position then .error (.concatAxis axis rank)
  else .ok position.toNat

/-- The common element type of the inputs and the one given. -/
def mergeElementTypes (merged : ElementType) : List TensorType → Except InferenceError ElementType
  | [] => .ok merged
  | input :: inputs =>
      match merged.merge input.elementType with
      | none => .error (.concatElementTypes merged input.elementType)
      | some merged => mergeElementTypes merged inputs

/-- The sum of two sizes, known only if both are.  Past the machine word it starts
again from zero. -/
def addDims : Dim → Dim → Dim
  | some left, some right => some ((left + right) % wordLimit)
  | _, _ => none

/-- The dimensions of the inputs so far: the axis and, with the one along it
left open, the merged dimensions, once an input had a known rank; and the sum of
the sizes along the axis. -/
structure Joined where
  frame : Option (Nat × List Dim)
  total : Dim

/-- The dimensions of no inputs. -/
def Joined.none : Joined where
  frame := Option.none
  total := some 0

/-- Add the dimensions of one input. -/
def Joined.add (axis : Int) (joined : Joined) (input : PartialShape) :
    Except InferenceError Joined :=
  match input with
  | .unranked => .ok { joined with total := Option.none }
  | .ranked dims => do
      let position ←
        match joined.frame with
        | some (position, _) => pure position
        | Option.none => normalizeAxis axis dims.length
      if dims.length ≤ position then
        throw (.concatRank input)
      let total := addDims joined.total (dims[position]?).join
      let opened := dims.set position Option.none
      match joined.frame with
      | Option.none => return { frame := some (position, opened), total }
      | some (_, merged) =>
          match PartialShape.mergeDims merged opened with
          | Option.none => throw (.concatShapes (.ranked merged) input)
          | some merged => return { frame := some (position, merged), total }

/-- The shape of the inputs together; of unknown rank if all of them are. -/
def Joined.shape (joined : Joined) : PartialShape :=
  match joined.frame with
  | Option.none => .unranked
  | some (position, merged) => .ranked (merged.set position joined.total)

/-- The type of the inputs one after the other along an axis. -/
def infer (axis : Int) (inputs : List TensorType) : Except InferenceError TensorType := do
  if inputs.isEmpty then
    throw .nothingToConcatenate
  let elementType ← mergeElementTypes .dynamic inputs
  let joined ← (inputs.map (·.shape)).foldlM (Joined.add axis) Joined.none
  return { elementType, shape := joined.shape }

end TensorGraph.Concat
