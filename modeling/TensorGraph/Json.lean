/-!
# JSON values

A JSON text as a tree.  Numbers and strings keep their written form, so that a
reader can decide what it accepts: a string may hold an escape that stands for
no character, and a number may be too large for any machine type.  Fields keep
their order and may repeat.
-/

namespace TensorGraph

/-- A number as it is written: sign, whole digits, and the digits of a fraction
and an exponent where there is one. -/
structure Json.Numeral where
  negative : Bool
  whole : List Char
  fraction : List Char := []
  exponent : Option (Bool × List Char) := none
  deriving DecidableEq

/-- A JSON value; strings and keys hold what stands between their quotes,
escapes included. -/
inductive Json where
  | null
  | bool (value : Bool)
  | number (numeral : Json.Numeral)
  | string (quoted : List Char)
  | array (items : List Json)
  | object (fields : List (List Char × Json))
  deriving Inhabited

end TensorGraph
