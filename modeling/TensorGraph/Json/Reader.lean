import TensorGraph.Json.Token

/-!
# Reading JSON

The value that a row of tokens spells.  The reader keeps the arrays and objects
that are still open on a stack, so it takes one step for each token and reads
texts nested to any depth.
-/

namespace TensorGraph.Json

/-- An array or object that is still open, with its finished members, last one
first. -/
inductive Enclosing where
  | array (items : List Json)
  | object (fields : List (List Char × Json)) (key : List Char)

/-- What the reader expects next inside the given open values. -/
inductive Reading where
  | value (outer : List Enclosing)
  | itemOrEnd (outer : List Enclosing)
  | keyOrEnd (outer : List Enclosing)
  | key (fields : List (List Char × Json)) (outer : List Enclosing)
  | colon (fields : List (List Char × Json)) (key : List Char) (outer : List Enclosing)
  | after (value : Json) (outer : List Enclosing)

namespace Reading

/-- Begin a value. -/
def begin (outer : List Enclosing) : Token → Option Reading
  | .openArray => some (.itemOrEnd outer)
  | .openObject => some (.keyOrEnd outer)
  | .null => some (.after .null outer)
  | .bool truth => some (.after (.bool truth) outer)
  | .number numeral => some (.after (.number numeral) outer)
  | .string quoted => some (.after (.string quoted) outer)
  | _ => none

/-- Take one token. -/
def step : Reading → Token → Option Reading
  | .value outer, token => begin outer token
  | .itemOrEnd outer, .closeArray => some (.after (.array []) outer)
  | .itemOrEnd outer, token => begin (.array [] :: outer) token
  | .keyOrEnd outer, .closeObject => some (.after (.object []) outer)
  | .keyOrEnd outer, .string quoted => some (.colon [] quoted outer)
  | .key fields outer, .string quoted => some (.colon fields quoted outer)
  | .colon fields name outer, .colon => some (.value (.object fields name :: outer))
  | .after item (.array items :: outer), .comma =>
      some (.value (.array (item :: items) :: outer))
  | .after item (.array items :: outer), .closeArray =>
      some (.after (.array (item :: items).reverse) outer)
  | .after item (.object fields name :: outer), .comma =>
      some (.key ((name, item) :: fields) outer)
  | .after item (.object fields name :: outer), .closeObject =>
      some (.after (.object ((name, item) :: fields).reverse) outer)
  | _, _ => none

end Reading

/-- The value that a row of tokens spells. -/
def ofTokens (tokens : List Token) : Option Json := do
  match ← tokens.foldlM Reading.step (.value []) with
  | .after value [] => some value
  | _ => none

/-- The value that a text spells; nothing but blanks may follow it. -/
def parse (text : String) : Option Json := do
  ofTokens (← Token.ofText text.toList)

end TensorGraph.Json
