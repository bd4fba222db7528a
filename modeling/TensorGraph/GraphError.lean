import TensorGraph.Label
import TensorGraph.Operator.InferenceError
import TensorGraph.Role

/-!
# Why an operation is refused

The causes for which an operation on a network or on a graph is refused, by
kind, and the wording of each.
-/

namespace TensorGraph

/-- A failed inference: its cause, and the node at which it failed if there is
one. -/
structure InferenceFailure where
  cause : InferenceError
  node : Option NodeLabel
  deriving DecidableEq

/-- Why a name or the absence of one does not single out a port. -/
inductive Ambiguity where
  /-- The graph does not have exactly one port of the given role. -/
  | notSingle (count : Nat) (role : Role)
  /-- Several outputs carry the name. -/
  | tensorName (name : String)
  /-- Several nodes have the name. -/
  | nodeName (name : String)
  deriving DecidableEq

/-- Why a tensor name is in conflict. -/
inductive NamingConflict where
  /-- The name that is to be given belongs to another output. -/
  | taken (name : String) (holder : PortLabel)
  /-- The name belongs to two outputs. -/
  | shared (name : String) (first second : PortLabel)
  /-- A look-up by the name finds two tensors. -/
  | found (name : String) (first second : PortLabel)
  deriving DecidableEq

/-- Why the parameters of a graph cannot take the requested shapes. -/
inductive ReshapeRefusal where
  /-- With the requested shapes, some type cannot be inferred. -/
  | inference (failure : InferenceFailure)
  /-- Two requests give one parameter different shapes. -/
  | contradiction (parameter : NodeLabel) (first second : PartialShape)
  /-- The named tensor is in the graph but no parameter's. -/
  | noParameterTensor (name : String)
  /-- The port belongs to no parameter of the graph. -/
  | noParameterPort (port : PortLabel)
  deriving DecidableEq

/-- Why an operation makes no sense for its operands. -/
inductive Misuse where
  | selfDependency (node : NodeLabel)
  | shapeOfNonParameter (node : NodeLabel)
  | typeOfNonParameter (node : NodeLabel)
  | constantElementType (elementType : ElementType)
  | constantValueCount (sizes : List Nat) (expected actual : Nat)
  | replacedResult (node : NodeLabel)
  | outputCounts (target : NodeLabel) (targetCount : Nat)
      (replacement : NodeLabel) (replacementCount : Nat)
  | wrongRole (node : NodeLabel) (expected : Role)
  | alreadyPresent (node : NodeLabel)
  deriving DecidableEq

/-- Why an operation on a network or a graph is refused. -/
inductive GraphError where
  | nodeNotFound (id : Nat)
  | nameNotFound (name : String)
  | indexOutOfRange (index count : Nat)
  | ambiguousPort (cause : Ambiguity)
  | nameConflict (cause : NamingConflict)
  | invalidReshape (cause : ReshapeRefusal)
  | inference (failure : InferenceFailure)
  | undeclaredParameter (node : NodeLabel)
  | cycle (node : NodeLabel)
  | invalidOperation (cause : Misuse)
  deriving DecidableEq

open Text (Decimal.text naturals)

/-- The wording of a failed inference: the node, then the cause. -/
def InferenceFailure.message (failure : InferenceFailure) : String :=
  match failure.node with
  | none => failure.cause.message
  | some node => node.text ++ "：" ++ failure.cause.message

def Ambiguity.message : Ambiguity → String
  | notSingle count role =>
      "图中有" ++ Decimal.text count ++ "个" ++ role.tag ++ "，请通过索引或张量名指定"
  | tensorName name => "张量名'" ++ name ++ "'对应多个输出"
  | nodeName name => "节点名'" ++ name ++ "'对应多个节点"

def NamingConflict.message : NamingConflict → String
  | taken name holder => "'" ++ name ++ "'已属于" ++ holder.text
  | shared name first second =>
      "'" ++ name ++ "'同时属于" ++ first.text ++ "和" ++ second.text
  | found name first second =>
      "张量名'" ++ name ++ "'同时属于" ++ first.text ++ "和" ++ second.text

def ReshapeRefusal.message : ReshapeRefusal → String
  | inference failure => failure.message
  | contradiction parameter first second =>
      parameter.text ++ "被同时指定为" ++ first.text ++ "和" ++ second.text
  | noParameterTensor name => "张量'" ++ name ++ "'不是Parameter的输出"
  | noParameterPort port => port.text ++ "不是本图Parameter的输出"

def Misuse.message : Misuse → String
  | selfDependency node => node.text ++ "不能控制依赖自身"
  | shapeOfNonParameter node => node.text ++ "不是Parameter节点，不能直接设置形状"
  | typeOfNonParameter node => node.text ++ "不是Parameter节点，不能直接设置元素类型"
  | constantElementType elementType =>
      "Constant节点只支持整数类型，但得到: " ++ elementType.text
  | constantValueCount sizes expected actual =>
      "Constant节点形状" ++ naturals sizes ++ "需要" ++ Decimal.text expected ++
        "个值，实际为" ++ Decimal.text actual ++ "个"
  | replacedResult node => node.text ++ "是Result节点，不能被替换"
  | outputCounts target targetCount replacement replacementCount =>
      target.text ++ "有" ++ Decimal.text targetCount ++ "个输出，而" ++ replacement.text ++
        "有" ++ Decimal.text replacementCount ++ "个输出，无法替换"
  | wrongRole node expected => node.text ++ "的角色不是" ++ expected.tag
  | alreadyPresent node => node.text ++ "已在图中"

namespace GraphError

/-- The name of the kind of error. -/
def tag : GraphError → String
  | nodeNotFound _ => "NodeNotFound"
  | nameNotFound _ => "NameNotFound"
  | indexOutOfRange _ _ => "IndexOutOfRange"
  | ambiguousPort _ => "AmbiguousPort"
  | nameConflict _ => "NameConflict"
  | invalidReshape _ => "InvalidReshape"
  | inference _ => "ShapeInference"
  | undeclaredParameter _ => "UndeclaredParameter"
  | cycle _ => "CycleDetected"
  | invalidOperation _ => "InvalidOperation"

def message : GraphError → String
  | nodeNotFound id => "图中不存在节点" ++ Decimal.text id
  | nameNotFound name => "未找到名称：" ++ name
  | indexOutOfRange index count =>
      "索引" ++ Decimal.text index ++ "越界（共" ++ Decimal.text count ++ "个）"
  | ambiguousPort cause => "无法唯一确定端口：" ++ cause.message
  | nameConflict cause => "张量名冲突：" ++ cause.message
  | invalidReshape cause => "无效的reshape：" ++ cause.message
  | inference failure => "类型/形状推导失败：" ++ failure.message
  | undeclaredParameter node => "图引用了未注册的参数节点：" ++ node.text
  | cycle node => "图中存在环：" ++ node.text ++ "位于环上"
  | invalidOperation cause => "无效操作：" ++ cause.message

end GraphError
end TensorGraph
