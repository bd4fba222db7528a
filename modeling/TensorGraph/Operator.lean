import TensorGraph.Description

/-!
# Operators

The eight kinds of nodes with their attributes: what a node computes or
declares, apart from where its inputs come from.
-/

namespace TensorGraph

/-- What a node computes or declares. -/
inductive Operator where
  /-- A value given to the graph from outside, of the declared type. -/
  | parameter (declared : TensorType)
  /-- A value that the graph gives out: its input, unchanged. -/
  | result
  /-- A tensor of integers. -/
  | constant (elementType : ElementType) (sizes : List Nat) (values : List Int)
  /-- Storing the input, which may be missing, in a variable. -/
  | assign (stateVariable : String)
  /-- Negative elements become zero. -/
  | relu
  /-- The inputs one after the other along an axis, counted from the end when it
  is negative. -/
  | concat (axis : Int)
  /-- The sizes of the input. -/
  | shapeOf
  /-- The elements of the first input in the shape that the second one gives; if
  `specialZero` holds, a zero stands for the size of the same dimension of the
  first input. -/
  | reshape (specialZero : Bool)
  deriving DecidableEq, Inhabited

namespace Operator

/-- What a description says of the operator. -/
def describe : Operator → OperatorDescription
  | parameter _ => .parameter
  | result => .result
  | constant _ _ values => .constant values
  | assign stateVariable => .assign stateVariable
  | relu => .relu
  | concat axis => .concat axis
  | shapeOf => .shapeOf
  | reshape specialZero => .reshape specialZero

def typeName (operator : Operator) : String :=
  operator.describe.typeName

/-- What a node with this operator does for a graph. -/
def role : Operator → Role
  | parameter _ => .parameter
  | result => .result
  | assign _ => .sink
  | _ => .operation

def outputCount : Operator → Nat
  | assign _ => 0
  | _ => 1

def constantValues? : Operator → Option (List Int)
  | constant _ _ values => some values
  | _ => none

end Operator
end TensorGraph
