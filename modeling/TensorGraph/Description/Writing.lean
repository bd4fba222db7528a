import TensorGraph.Description
import TensorGraph.Json.Writer

/-!
# Writing descriptions

Descriptions as JSON values.  Records are objects with their fields in the
order of declaration; tensor names and control dependencies are left out where
there are none; an operator is an object that holds its kind under `type` and
its attributes beside it.
-/

namespace TensorGraph

def Json.listOf {α : Type} (item : α → Json) (items : List α) : Json :=
  .array (items.map item)

/-- A field that is left out where the list is empty. -/
def Json.unlessEmpty {α : Type} (key : String) (item : α → Json) (items : List α) :
    List (String × Json) :=
  if items.isEmpty then [] else [(key, Json.listOf item items)]

/-- An element type is written as its tag. -/
def ElementType.toJson (elementType : ElementType) : Json :=
  .ofString elementType.tag

def Role.toJson (role : Role) : Json :=
  .ofString role.tag

/-- An unknown size is null. -/
def PartialShape.dimToJson : Dim → Json
  | none => .null
  | some size => .ofNat size

/-- An unknown rank is null. -/
def PartialShape.toJson (shape : PartialShape) : Json :=
  .ofFields [("dims",
    match shape with
    | unranked => .null
    | ranked dims => Json.listOf dimToJson dims)]

namespace OperatorDescription

def attributes : OperatorDescription → List (String × Json)
  | constant values => [("values", Json.listOf .ofInt values)]
  | assign stateVariable => [("variable_id", .ofString stateVariable)]
  | concat axis => [("axis", .ofInt axis)]
  | reshape specialZero => [("special_zero", .bool specialZero)]
  | _ => []

/-- The kind of the operator, then its attributes. -/
def toJson (operator : OperatorDescription) : Json :=
  .ofFields (("type", .ofString operator.typeName) :: operator.attributes)

end OperatorDescription

/-- The names of a tensor are left out where it has none. -/
def TensorDescription.toJson (tensor : TensorDescription) : Json :=
  .ofFields ([("element_type", tensor.type.elementType.toJson),
    ("partial_shape", tensor.type.shape.toJson)] ++
    Json.unlessEmpty "tensor_names" .ofString tensor.names)

/-- An input is a pair of a node id and an output index; control dependencies
are left out where there are none. -/
def NodeDescription.toJson (node : NodeDescription) : Json :=
  .ofFields ([("id", .ofNat node.id),
    ("name", .ofString node.name),
    ("node_type", node.operator.toJson),
    ("role", node.role.toJson),
    ("outputs", Json.listOf TensorDescription.toJson node.outputs),
    ("inputs", Json.listOf (fun (id, index) => .array [.ofNat id, .ofNat index]) node.inputs)] ++
    Json.unlessEmpty "control_dependencies" .ofNat node.controlDependencies)

/-- A graph is its version, its name and its nodes. -/
def GraphDescription.toJson (graph : GraphDescription) : Json :=
  .ofFields [("version", .ofString graph.version),
    ("name", .ofString graph.name),
    ("nodes", Json.listOf NodeDescription.toJson graph.nodes)]

end TensorGraph
