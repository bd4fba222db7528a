import TensorGraph.Text.Printable

/-!
# Escapes in JSON strings

What stands between the quotes of a JSON string and the text that it denotes.
Writing escapes quotes, backslashes and control characters only; reading takes
every escape and refuses halves of surrogate pairs that stand alone.
-/

namespace TensorGraph.Json.Escape

open Text.Hexadecimal (digitChar digitValue?)

/-- The number that four hexadecimal digits denote. -/
def unit? (a b c d : Char) : Option Nat := do
  return 4096 * (← digitValue? a) + 256 * (← digitValue? b) + 16 * (← digitValue? c) +
    (← digitValue? d)

/-- The character that a letter after a backslash denotes, `u` apart. -/
def simple? : Char → Option Char
  | '"' => some '"'
  | '\\' => some '\\'
  | '/' => some '/'
  | 'b' => some '\x08'
  | 'f' => some '\x0c'
  | 'n' => some '\n'
  | 'r' => some '\r'
  | 't' => some '\t'
  | _ => none

/-- The written form of one character of a string. -/
def character (c : Char) : List Char :=
  if c = '"' then ['\\', '"']
  else if c = '\\' then ['\\', '\\']
  else if c = '\x08' then ['\\', 'b']
  else if c = '\x0c' then ['\\', 'f']
  else if c = '\n' then ['\\', 'n']
  else if c = '\r' then ['\\', 'r']
  else if c = '\t' then ['\\', 't']
  else if c.toNat < 32 then
    ['\\', 'u', '0', '0', digitChar (c.toNat / 16), digitChar (c.toNat % 16)]
  else [c]

/-- The written form of a text. -/
def encode (text : List Char) : List Char :=
  text.flatMap character

/-- The first half of a surrogate pair. -/
def isLeading (unit : Nat) : Bool :=
  0xD800 ≤ unit && unit < 0xDC00

/-- The second half of a surrogate pair. -/
def isTrailing (unit : Nat) : Bool :=
  0xDC00 ≤ unit && unit < 0xE000

/-- The text that a written form denotes; none if it holds half of a surrogate
pair without the other half. -/
def decode : List Char → Option (List Char)
  | [] => some []
  | '\\' :: 'u' :: a :: b :: c :: d :: '\\' :: 'u' :: e :: f :: g :: h :: rest => do
      let first ← unit? a b c d
      let second ← unit? e f g h
      if isLeading first && isTrailing second then
        let point := 0x10000 + 1024 * (first - 0xD800) + (second - 0xDC00)
        return Char.ofNat point :: (← decode rest)
      else if isLeading first || isTrailing first then none
      else
        return Char.ofNat first :: (← decode ('\\' :: 'u' :: e :: f :: g :: h :: rest))
  | '\\' :: 'u' :: a :: b :: c :: d :: rest => do
      let only ← unit? a b c d
      if isLeading only || isTrailing only then none
      else return Char.ofNat only :: (← decode rest)
  | '\\' :: letter :: rest => do
      return (← simple? letter) :: (← decode rest)
  | c :: rest => if c = '\\' then none else return c :: (← decode rest)

end TensorGraph.Json.Escape
