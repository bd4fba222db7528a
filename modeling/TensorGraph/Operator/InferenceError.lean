import TensorGraph.Shape

/-!
# Why inference fails

The causes for which the type of an operator's output cannot be inferred from
what is known of its inputs, and the wording of each.
-/

namespace TensorGraph

/-- A cause for which no output type can be inferred. -/
inductive InferenceError where
  /-- There are fewer inputs than `least` or more than `most`. -/
  | inputCount (least most actual : Nat)
  /-- The input of a rectifier is of truth values. -/
  | rectifiedBoolean
  /-- A concatenation has no input. -/
  | nothingToConcatenate
  /-- The inputs so far and the next one have different element types. -/
  | concatElementTypes (merged next : ElementType)
  /-- The axis is not among the dimensions of the first input of known rank. -/
  | concatAxis (axis : Int) (rank : Nat)
  /-- An input has too few dimensions for the axis. -/
  | concatRank (shape : PartialShape)
  /-- The inputs so far and the next one differ beside the axis. -/
  | concatShapes (merged next : PartialShape)
  /-- The pattern of a reshape is not of integers. -/
  | patternElementType (elementType : ElementType)
  /-- The pattern of a reshape is no row. -/
  | patternRank (shape : PartialShape)
  /-- More than one entry of the pattern is to be worked out. -/
  | patternInferredTwice (pattern : List Int)
  /-- An entry is to be copied from a dimension that the data do not have. -/
  | patternCopiesMissing (pattern : List Int) (index : Nat) (data : PartialShape)
  /-- An entry is negative and not the mark for working it out. -/
  | patternNegative (pattern : List Int) (entry : Int)
  /-- The known entries have a product beyond the machine word. -/
  | patternOverflow (pattern : List Int)
  /-- The elements of the data do not fill the pattern. -/
  | patternMismatch (total : Nat) (data : PartialShape) (pattern : List Int)
  /-- The number of elements of a shape is beyond the machine word. -/
  | elementCountOverflow (shape : PartialShape)
  deriving DecidableEq

namespace InferenceError

open Text (Decimal.text Decimal.intText integers)

def message : InferenceError → String
  | inputCount least most actual =>
      let expected :=
        if least = most then Decimal.text least
        else Decimal.text least ++ "~" ++ Decimal.text most
      "需要" ++ expected ++ "个输入，实际为" ++ Decimal.text actual ++ "个"
  | rectifiedBoolean => "Relu的输入不能是boolean类型"
  | nothingToConcatenate => "Concat至少需要1个输入"
  | concatElementTypes merged next =>
      "Concat的输入元素类型不一致：" ++ merged.text ++ " 与 " ++ next.text
  | concatAxis axis rank =>
      "Concat的axis=" ++ Decimal.intText axis ++ "超出秩为" ++ Decimal.text rank ++ "的输入范围"
  | concatRank shape => "Concat的输入秩不一致：" ++ shape.text
  | concatShapes merged next =>
      "Concat的输入形状" ++ merged.text ++ "与" ++ next.text ++ "在非拼接轴上不兼容"
  | patternElementType elementType =>
      "Reshape的目标形状必须是整数类型，但得到: " ++ elementType.text
  | patternRank shape => "Reshape的目标形状必须是一维张量，但得到: " ++ shape.text
  | patternInferredTwice pattern =>
      "Reshape的目标形状" ++ integers pattern ++ "中只能有一个-1"
  | patternCopiesMissing pattern index data =>
      "Reshape的目标形状" ++ integers pattern ++ "第" ++ Decimal.text index ++
        "维为0，但输入" ++ data.text ++ "没有该维度"
  | patternNegative pattern entry =>
      "Reshape的目标形状" ++ integers pattern ++ "中含有非法值" ++ Decimal.intText entry
  | patternOverflow pattern => "Reshape的目标形状" ++ integers pattern ++ "的元素总数溢出"
  | patternMismatch total data pattern =>
      "无法将" ++ Decimal.text total ++ "个元素（输入" ++ data.text ++ "）reshape为" ++
        integers pattern
  | elementCountOverflow shape => "形状" ++ shape.text ++ "的元素总数溢出"

end InferenceError
end TensorGraph
