import TensorGraph.Operator
import TensorGraph.Operator.Concat
import TensorGraph.Operator.Reshape

/-!
# Inferring output types

The types of the outputs of a node from its operator and from what is known of
its inputs: their types and, where an input is a constant, its values.
-/

namespace TensorGraph

/-- What is known of an input: its type, and its integers if it is constant. -/
structure Operand where
  type : TensorType
  values : Option (List Int)
  deriving DecidableEq

namespace Operator

/-- The number of inputs lies within bounds. -/
def checkCount (least most : Nat) (operands : List Operand) : Except InferenceError Unit :=
  if operands.length < least ∨ most < operands.length then
    .error (.inputCount least most operands.length)
  else .ok ()

/-- The only input. -/
def single (operands : List Operand) : Except InferenceError Operand :=
  match operands with
  | [operand] => .ok operand
  | _ => .error (.inputCount 1 1 operands.length)

/-- The types of the outputs. -/
def infer : Operator → List Operand → Except InferenceError (List TensorType)
  | parameter declared, operands => do
      checkCount 0 0 operands
      return [declared]
  | result, operands => do
      let operand ← single operands
      return [operand.type]
  | constant elementType sizes _, operands => do
      checkCount 0 0 operands
      return [{ elementType, shape := .fixed sizes }]
  | assign _, operands => do
      checkCount 0 1 operands
      return []
  | relu, operands => do
      let operand ← single operands
      if operand.type.elementType = .boolean then
        throw .rectifiedBoolean
      return [operand.type]
  | concat axis, operands => do
      let type ← Concat.infer axis (operands.map (·.type))
      return [type]
  | shapeOf, operands => do
      let operand ← single operands
      return [{ elementType := .i64, shape := .ranked [operand.type.shape.rank?] }]
  | reshape specialZero, operands =>
      match operands with
      | [data, pattern] => do
          let type ← Reshape.infer specialZero data.type pattern.type pattern.values
          return [type]
      | _ => .error (.inputCount 2 2 operands.length)

end Operator
end TensorGraph
