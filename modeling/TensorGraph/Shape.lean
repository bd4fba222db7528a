import TensorGraph.ElementType
import TensorGraph.Text.Decimal

/-!
# Partially known shapes

The shape of a tensor, of which single dimensions or even their number may be
unknown.  A partial shape stands for the set of static shapes that match it:
two shapes are compatible when some static shape matches both, and merging them
keeps exactly the static shapes that match both.
-/

namespace TensorGraph

/-- The size of one dimension, if it is known. -/
abbrev Dim := Option Nat

/-- The product of the sizes from left to right; past the machine word it starts
again from zero. -/
def sizeProduct (sizes : List Nat) : Nat :=
  sizes.foldl (fun product size => product * size % wordLimit) 1

/-- The product of the sizes from left to right, if no partial product leaves
the machine word. -/
def boundedProduct (sizes : List Nat) : Option Nat :=
  sizes.foldlM
    (fun product size =>
      if product * size < wordLimit then some (product * size) else none) 1

/-- A partially known shape: of unknown rank, or a list of dimensions each of
which may be unknown. -/
inductive PartialShape where
  | unranked
  | ranked (dims : List Dim)
  deriving DecidableEq, Inhabited

/-- What is known of the number of elements of a tensor. -/
inductive ElementCount where
  | unknown
  | exactly (count : Nat)
  | overflow
  deriving DecidableEq

namespace PartialShape

/-- The shape with the given sizes, all known. -/
def fixed (sizes : List Nat) : PartialShape :=
  ranked (sizes.map some)

/-- A shape of known rank and unknown sizes. -/
def ofRank (rank : Nat) : PartialShape :=
  ranked (List.replicate rank none)

/-- The dimensions, if the rank is known. -/
def dims? : PartialShape → Option (List Dim)
  | unranked => none
  | ranked dims => some dims

/-- The number of dimensions, if it is known. -/
def rank? (shape : PartialShape) : Option Nat :=
  shape.dims?.map List.length

/-- The size of one dimension; unknown as well where there is no such
dimension. -/
def dim (shape : PartialShape) (index : Nat) : Dim :=
  (shape.dims?.bind (·[index]?)).join

/-- The sizes, if all of them are known. -/
def sizes? (shape : PartialShape) : Option (List Nat) :=
  shape.dims?.bind (List.mapM id)

/-- Rank and all sizes are known. -/
def isStatic : PartialShape → Bool
  | unranked => false
  | ranked dims => dims.all Option.isSome

/-- The rank or some size is not known. -/
def isDynamic (shape : PartialShape) : Bool :=
  !shape.isStatic

/-- The number of elements, known only for static shapes. -/
def elementCount (shape : PartialShape) : ElementCount :=
  match shape.sizes? with
  | none => .unknown
  | some sizes =>
      match boundedProduct sizes with
      | none => .overflow
      | some count => .exactly count

/-- Two dimensions can be equal. -/
def dimsCompatible : Dim → Dim → Bool
  | some left, some right => left = right
  | _, _ => true

/-- Two shapes can be equal: one rank is unknown, or the ranks agree and so do
the sizes known on both sides. -/
def isCompatible : PartialShape → PartialShape → Bool
  | ranked left, ranked right =>
      left.length = right.length && (left.zip right).all fun (x, y) => dimsCompatible x y
  | _, _ => true

/-- The common refinement of two dimensions; none when two known sizes
differ. -/
def mergeDim : Dim → Dim → Option Dim
  | some left, some right => if left = right then some (some left) else none
  | some left, none => some (some left)
  | none, right => some right

/-- The common refinement of two rows of dimensions of one length. -/
def mergeDims : List Dim → List Dim → Option (List Dim)
  | [], [] => some []
  | left :: lefts, right :: rights => do
      let dim ← mergeDim left right
      let dims ← mergeDims lefts rights
      return dim :: dims
  | _, _ => none

/-- The common refinement of two shapes, if they are compatible. -/
def merge : PartialShape → PartialShape → Option PartialShape
  | unranked, other => some other
  | this, unranked => some this
  | ranked left, ranked right => (mergeDims left right).map ranked

/-- A size in decimal digits, or a question mark. -/
def dimText : Dim → String
  | some size => Text.Decimal.text size
  | none => "?"

/-- The spelling used in messages and tables: `[1, ?, 3]`, and `[...]` for an
unknown rank. -/
def text : PartialShape → String
  | unranked => "[...]"
  | ranked dims => Text.bracketed (dims.map dimText)

end PartialShape

/-- What is known of a tensor: the type of its elements and its shape. -/
structure TensorType where
  elementType : ElementType
  shape : PartialShape
  deriving DecidableEq, Inhabited

end TensorGraph
