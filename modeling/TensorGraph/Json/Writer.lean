import TensorGraph.Json.Token

/-!
# Writing JSON

A value as text, in one of two layouts: compact, without any blank, or with one
member a line, two spaces of indentation a level and a space after each colon.
Both layouts spell the same tokens.
-/

namespace TensorGraph.Json

/-- The blanks of a layout: before a member at a depth, and after a colon. -/
structure Layout where
  lineAt : Nat → List Char
  gap : List Char

namespace Layout

/-- No blanks. -/
def compact : Layout where
  lineAt _ := []
  gap := []

/-- One member a line, two spaces of indentation a level. -/
def indented : Layout where
  lineAt depth := '\n' :: List.replicate (2 * depth) ' '
  gap := [' ']

end Layout

/-- Put a token in front of a text. -/
def Token.before (token : Token) (rest : List Char) : List Char :=
  token.text ++ rest

mutual

/-- Put the text of a value at a depth in front of another text. -/
def write (layout : Layout) (depth : Nat) : Json → List Char → List Char
  | .null, rest => Token.null.before rest
  | .bool value, rest => (Token.bool value).before rest
  | .number numeral, rest => (Token.number numeral).before rest
  | .string quoted, rest => (Token.string quoted).before rest
  | .array [], rest => Token.openArray.before (Token.closeArray.before rest)
  | .array (item :: items), rest =>
      Token.openArray.before (layout.lineAt (depth + 1) ++
        write layout (depth + 1) item (writeItems layout (depth + 1) items
          (layout.lineAt depth ++ Token.closeArray.before rest)))
  | .object [], rest => Token.openObject.before (Token.closeObject.before rest)
  | .object ((key, value) :: fields), rest =>
      Token.openObject.before (layout.lineAt (depth + 1) ++
        (Token.string key).before (Token.colon.before (layout.gap ++
          write layout (depth + 1) value (writeFields layout (depth + 1) fields
            (layout.lineAt depth ++ Token.closeObject.before rest)))))

/-- Put the text of the items after the first in front of another text. -/
def writeItems (layout : Layout) (depth : Nat) : List Json → List Char → List Char
  | [], rest => rest
  | item :: items, rest =>
      Token.comma.before (layout.lineAt depth ++
        write layout depth item (writeItems layout depth items rest))

/-- Put the text of the fields after the first in front of another text. -/
def writeFields (layout : Layout) (depth : Nat) :
    List (List Char × Json) → List Char → List Char
  | [], rest => rest
  | (key, value) :: fields, rest =>
      Token.comma.before (layout.lineAt depth ++
        (Token.string key).before (Token.colon.before (layout.gap ++
          write layout depth value (writeFields layout depth fields rest))))

end

/-- The text of a value without blanks. -/
def compact (value : Json) : String :=
  String.ofList (write .compact 0 value [])

/-- The text of a value, one member a line. -/
def indented (value : Json) : String :=
  String.ofList (write .indented 0 value [])

/-- The value of a text. -/
def ofString (text : String) : Json :=
  .string (Escape.encode text.toList)

def ofInt (number : Int) : Json :=
  .number { negative := number < 0, whole := Text.Decimal.digits number.natAbs }

def ofNat (number : Nat) : Json :=
  .number { negative := false, whole := Text.Decimal.digits number }

/-- The object with the given fields, in order. -/
def ofFields (fields : List (String × Json)) : Json :=
  .object (fields.map fun (key, value) => (Escape.encode key.toList, value))

end TensorGraph.Json
