import TensorGraph.Json.Magnitude
import TensorGraph.Json.Token

/-!
# Reading data out of JSON values

The texts, machine integers and fields that a JSON value holds.  Integers are
numbers written without fraction or exponent that fit 64 bits; negative zero
and anything larger are real numbers and no integers.
-/

namespace TensorGraph.Json

namespace Numeral

/-- The integer that is written, if it fits 64 bits, with or without sign. -/
def integer? (numeral : Numeral) : Option Int :=
  if numeral.fraction = [] ∧ numeral.exponent = none then
    let magnitude := Text.Decimal.value numeral.whole
    if numeral.negative then
      if 0 < magnitude ∧ magnitude ≤ signedLimit then some (-(magnitude : Int)) else none
    else if magnitude < wordLimit then some magnitude
    else none
  else none

end Numeral

/-- The text that a quoted form denotes. -/
def quotedText? (quoted : List Char) : Option String :=
  (Escape.decode quoted).map String.ofList

/-- The text that a string denotes. -/
def text? : Json → Option String
  | .string quoted => quotedText? quoted
  | _ => none

def bool? : Json → Option Bool
  | .bool value => some value
  | _ => none

/-- The integer, if the value is one that fits 64 bits. -/
def integer? : Json → Option Int
  | .number numeral => numeral.integer?
  | _ => none

/-- An unsigned integer of 64 bits. -/
def unsigned? (value : Json) : Option Nat := do
  let number ← value.integer?
  if 0 ≤ number then some number.toNat else none

/-- A signed integer of 64 bits. -/
def signed? (value : Json) : Option Int := do
  let number ← value.integer?
  if number < signedLimit then some number else none

def items? : Json → Option (List Json)
  | .array items => some items
  | _ => none

/-- The last field with the given key. -/
def field? (key : String) : Json → Option Json
  | .object fields =>
      (fields.reverse.find? fun (quoted, _) => quotedText? quoted = some key).map Prod.snd
  | _ => none

def isNull : Json → Bool
  | .null => true
  | _ => false

/-- How many arrays and objects may be open at once in a value that is kept. -/
def nestingLimit : Nat := 127

mutual

/-- The value can be kept as data: every string denotes a text, every number is
finite, and at most `room` arrays and objects are open at once. -/
def isKeepable (room : Nat) : Json → Bool
  | .null => true
  | .bool _ => true
  | .number numeral => numeral.isFinite
  | .string quoted => (Escape.decode quoted).isSome
  | .array items => 0 < room && areItemsKeepable (room - 1) items
  | .object fields => 0 < room && areFieldsKeepable (room - 1) fields

/-- Every item can be kept. -/
def areItemsKeepable (room : Nat) : List Json → Bool
  | [] => true
  | item :: items => isKeepable room item && areItemsKeepable room items

/-- Every key and every value can be kept. -/
def areFieldsKeepable (room : Nat) : List (List Char × Json) → Bool
  | [] => true
  | (key, value) :: fields =>
      (Escape.decode key).isSome && isKeepable room value && areFieldsKeepable room fields

end

end TensorGraph.Json
