import TensorGraph.Description
import TensorGraph.Json.Access
import TensorGraph.Json.Reader

/-!
# Reading descriptions

Descriptions out of JSON values.  A record is an object, in which unknown
fields are skipped and known ones may stand once, or an array of the values of
its fields in the order of declaration.  A choice without data is its tag, or
an object that maps the tag to null.
-/

namespace TensorGraph
namespace Json

/-- A field of a record: given, omitted from an object, or behind the end of an
array. -/
inductive Slot where
  | given (value : Json)
  | omitted
  | cutOff

/-- The values that an object has under a key; none if some key denotes no
text. -/
def valuesOf (key : String) (fields : List (List Char × Json)) : List Json :=
  (fields.filter fun (quoted, _) => quotedText? quoted = some key).map Prod.snd

/-- The fields of a record with the given keys. -/
def slots? (keys : List String) : Json → Option (List Slot)
  | .object fields =>
      if fields.all fun (quoted, _) => (quotedText? quoted).isSome then
        keys.mapM fun key =>
          match valuesOf key fields with
          | [] => some .omitted
          | [value] => some (.given value)
          | _ => none
      else none
  | .array items =>
      if items.length ≤ keys.length then
        some (items.map .given ++ List.replicate (keys.length - items.length) .cutOff)
      else none
  | _ => none

namespace Slot

/-- A field that must be given. -/
def required {α : Type} (read : Json → Option α) : Slot → Option α
  | given value => read value
  | _ => none

/-- A field with a default. -/
def orElse {α : Type} (default : α) (read : Json → Option α) : Slot → Option α
  | given value => read value
  | _ => some default

/-- A field that may be null or omitted, but not cut off. -/
def optional {α : Type} (read : Json → Option α) : Slot → Option (Option α)
  | given .null => some none
  | given value => (read value).map some
  | omitted => some none
  | cutOff => none

end Slot

/-- The tag of a choice without data. -/
def tag? : Json → Option String
  | .string quoted => quotedText? quoted
  | .object [(quoted, .null)] => quotedText? quoted
  | _ => none

def listOf? {α : Type} (read : Json → Option α) (value : Json) : Option (List α) := do
  (← value.items?).mapM read

end Json

open Json

def ElementType.ofJson? (value : Json) : Option ElementType := do
  ofTag? (← value.tag?)

def Role.ofJson? (value : Json) : Option Role := do
  ofTag? (← value.tag?)

/-- A size, or null where it is unknown. -/
def PartialShape.dimOfJson? : Json → Option Dim
  | .null => some none
  | value => value.unsigned?.map some

/-- A shape from its dimensions, which may be null or omitted. -/
def PartialShape.ofJson? (value : Json) : Option PartialShape := do
  match ← value.slots? ["dims"] with
  | [dims] =>
      match ← dims.optional (Json.listOf? dimOfJson?) with
      | none => return .unranked
      | some dims => return .ranked dims
  | _ => none

/-- The values of an operator with one attribute. -/
def Json.attribute? {α : Type} (key : String) (read : Json → Option α)
    (content : Json) : Option α := do
  match ← content.slots? [key] with
  | [slot] => slot.required read
  | _ => none

namespace OperatorDescription

/-- An operator of the given kind, from its attributes.  Kinds without
attributes take any object and the empty array. -/
def ofContent? (kind : String) (content : Json) : Option OperatorDescription :=
  match kind with
  | "Parameter" => plain? parameter
  | "Result" => plain? result
  | "Constant" => (attribute? "values" (Json.listOf? signed?) content).map constant
  | "Assign" => (attribute? "variable_id" text? content).map assign
  | "Relu" => plain? relu
  | "Concat" => (attribute? "axis" signed? content).map concat
  | "ShapeOf" => plain? shapeOf
  | "Reshape" => (attribute? "special_zero" bool? content).map reshape
  | _ => none
where
  /-- An operator without attributes. -/
  plain? (operator : OperatorDescription) : Option OperatorDescription :=
    match content with
    | .object _ => some operator
    | .array [] => some operator
    | _ => none

/-- An operator from an object that holds its kind once, or from an array that
starts with its kind.  The attributes are kept until the kind is known, so all
of them have to be keepable; `room` bounds their nesting. -/
def ofJson? (room : Nat) (value : Json) : Option OperatorDescription :=
  if value.isKeepable room then
    match value with
    | .object fields =>
        match Json.valuesOf "type" fields with
        | [kind] => do
            ofContent? (← kind.text?)
              (.object (fields.filter fun (quoted, _) => quotedText? quoted ≠ some "type"))
        | _ => none
    | .array (kind :: rest) => do
        ofContent? (← kind.text?) (.array rest)
    | _ => none
  else none

end OperatorDescription

/-- A tensor from its element type, its shape and its names, if it has any. -/
def TensorDescription.ofJson? (value : Json) : Option TensorDescription := do
  match ← value.slots? ["element_type", "partial_shape", "tensor_names"] with
  | [elementType, shape, names] =>
      return {
        type := {
          elementType := ← elementType.required ElementType.ofJson?
          shape := ← shape.required PartialShape.ofJson? }
        names := ← names.orElse [] (Json.listOf? text?) }
  | _ => none

/-- A pair of a node id and an output index. -/
def NodeDescription.inputOfJson? : Json → Option (Nat × Nat)
  | .array [id, index] => do return (← id.unsigned?, ← index.unsigned?)
  | _ => none

/-- A node; `room` bounds the nesting of its operator. -/
def NodeDescription.ofJson? (room : Nat) (value : Json) : Option NodeDescription := do
  match ← value.slots?
      ["id", "name", "node_type", "role", "outputs", "inputs", "control_dependencies"] with
  | [id, name, operator, role, outputs, inputs, controlDependencies] =>
      return {
        id := ← id.required unsigned?
        name := ← name.required text?
        operator := ← operator.required (OperatorDescription.ofJson? (room - 1))
        role := ← role.required Role.ofJson?
        outputs := ← outputs.required (Json.listOf? TensorDescription.ofJson?)
        inputs := ← inputs.required (Json.listOf? inputOfJson?)
        controlDependencies := ← controlDependencies.orElse [] (Json.listOf? unsigned?) }
  | _ => none

/-- A graph; `room` bounds the nesting of its operators. -/
def GraphDescription.ofJson? (room : Nat) (value : Json) : Option GraphDescription := do
  match ← value.slots? ["version", "name", "nodes"] with
  | [version, name, nodes] =>
      return {
        version := ← version.required text?
        name := ← name.required text?
        nodes := ← nodes.required (Json.listOf? (NodeDescription.ofJson? (room - 2))) }
  | _ => none

end TensorGraph
