import TensorGraph.Json
import TensorGraph.Json.Escape
import TensorGraph.Text.Decimal

/-!
# JSON tokens

A JSON text cut into brackets, separators, words, numbers and strings, with the
blanks between them left out, and the written form of each token.
-/

namespace TensorGraph.Json

open Text (Decimal.isDigit)

/-- A piece of a JSON text. -/
inductive Token where
  | openArray
  | closeArray
  | openObject
  | closeObject
  | comma
  | colon
  | null
  | bool (value : Bool)
  | number (numeral : Numeral)
  | string (quoted : List Char)
  deriving DecidableEq

namespace Numeral

/-- The written form of a number. -/
def text (numeral : Numeral) : List Char :=
  (if numeral.negative then ['-'] else []) ++ numeral.whole ++
    (if numeral.fraction = [] then [] else '.' :: numeral.fraction) ++
    (match numeral.exponent with
    | none => []
    | some (false, digits) => 'e' :: digits
    | some (true, digits) => 'e' :: '-' :: digits)

/-- The digits at the start of a text, and the rest of it. -/
def span (text : List Char) : List Char × List Char :=
  (text.takeWhile Decimal.isDigit, text.dropWhile Decimal.isDigit)

/-- The whole digits at the start of a text: one zero, or digits that do not
start with zero. -/
def scanWhole : List Char → Option (List Char × List Char)
  | '0' :: rest => some (['0'], rest)
  | text =>
      match span text with
      | ([], _) => none
      | digits => some digits

/-- The fraction at the start of a text, which is empty where no point
stands. -/
def scanFraction : List Char → Option (List Char × List Char)
  | '.' :: rest =>
      match span rest with
      | ([], _) => none
      | digits => some digits
  | text => some ([], text)

/-- The digits of an exponent after its sign. -/
def scanPower (negative : Bool) (text : List Char) :
    Option (Option (Bool × List Char) × List Char) :=
  match span text with
  | ([], _) => none
  | (digits, rest) => some (some (negative, digits), rest)

/-- The exponent at the start of a text, if one stands there. -/
def scanExponent : List Char → Option (Option (Bool × List Char) × List Char)
  | 'e' :: '-' :: rest | 'E' :: '-' :: rest => scanPower true rest
  | 'e' :: '+' :: rest | 'E' :: '+' :: rest => scanPower false rest
  | 'e' :: rest | 'E' :: rest => scanPower false rest
  | text => some (none, text)

/-- The number without a sign at the start of a text. -/
def scanUnsigned (negative : Bool) (text : List Char) : Option (Numeral × List Char) := do
  let (whole, afterWhole) ← scanWhole text
  let (fraction, afterFraction) ← scanFraction afterWhole
  let (exponent, rest) ← scanExponent afterFraction
  return ({ negative, whole, fraction, exponent }, rest)

/-- The number at the start of a text. -/
def scan : List Char → Option (Numeral × List Char)
  | '-' :: rest => scanUnsigned true rest
  | text => scanUnsigned false text

theorem length_span (text : List Char) :
    (span text).1.length + (span text).2.length = text.length := by
  rw [← List.length_append, span, List.takeWhile_append_dropWhile]

theorem length_of_scanWhole {text digits rest : List Char}
    (scanned : scanWhole text = some (digits, rest)) : rest.length < text.length := by
  unfold scanWhole at scanned
  split at scanned
  · simp_all
  · have total := length_span text
    split at scanned <;> simp_all
    have positive : 0 < digits.length := List.length_pos_iff.mpr (by grind)
    omega

theorem length_of_scanFraction {text digits rest : List Char}
    (scanned : scanFraction text = some (digits, rest)) : rest.length ≤ text.length := by
  unfold scanFraction at scanned
  split at scanned
  · next after =>
    have total := length_span after
    split at scanned <;> simp_all
    omega
  · simp_all

theorem length_of_scanPower {negative : Bool} {text rest : List Char}
    {power : Option (Bool × List Char)}
    (scanned : scanPower negative text = some (power, rest)) : rest.length ≤ text.length := by
  unfold scanPower at scanned
  have total := length_span text
  split at scanned <;> simp_all
  omega

theorem length_of_scanExponent {text rest : List Char} {power : Option (Bool × List Char)}
    (scanned : scanExponent text = some (power, rest)) : rest.length ≤ text.length := by
  unfold scanExponent at scanned
  split at scanned <;> first
    | (have shorter := length_of_scanPower scanned; simp only [List.length_cons]; omega)
    | simp_all

theorem length_of_scanUnsigned {negative : Bool} {text rest : List Char} {numeral : Numeral}
    (scanned : scanUnsigned negative text = some (numeral, rest)) :
    rest.length < text.length := by
  simp only [scanUnsigned, Option.bind_eq_bind, Option.bind_eq_some_iff, Option.pure_def,
    Option.some.injEq, Prod.mk.injEq] at scanned
  obtain ⟨⟨whole, afterWhole⟩, first, ⟨fraction, afterFraction⟩, second, ⟨exponent, after⟩,
    third, rfl, rfl⟩ := scanned
  have one := length_of_scanWhole first
  have two := length_of_scanFraction second
  have three := length_of_scanExponent third
  exact Nat.lt_of_le_of_lt (Nat.le_trans three two) one

/-- A number takes up some of the text. -/
theorem length_of_scan {text rest : List Char} {numeral : Numeral}
    (scanned : scan text = some (numeral, rest)) : rest.length < text.length := by
  unfold scan at scanned
  split at scanned
  · have shorter := length_of_scanUnsigned scanned
    simp only [List.length_cons]
    omega
  · exact length_of_scanUnsigned scanned

end Numeral

namespace Token

def text : Token → List Char
  | openArray => ['[']
  | closeArray => [']']
  | openObject => ['\x7b']
  | closeObject => ['\x7d']
  | comma => [',']
  | colon => [':']
  | null => ['n', 'u', 'l', 'l']
  | bool true => ['t', 'r', 'u', 'e']
  | bool false => ['f', 'a', 'l', 's', 'e']
  | number numeral => numeral.text
  | string quoted => '"' :: quoted ++ ['"']

/-- A character that may stand between tokens. -/
def isBlank (character : Char) : Bool :=
  character = ' ' || character = '\n' || character = '\t' || character = '\r'

/-- What stands before the closing quote of a string, and what follows the
quote. -/
def scanQuoted : List Char → Option (List Char × List Char)
  | [] => none
  | '"' :: rest => some ([], rest)
  | '\\' :: 'u' :: a :: b :: c :: d :: rest => do
      let _ ← Escape.unit? a b c d
      let (quoted, after) ← scanQuoted rest
      return ('\\' :: 'u' :: a :: b :: c :: d :: quoted, after)
  | '\\' :: letter :: rest => do
      let _ ← Escape.simple? letter
      let (quoted, after) ← scanQuoted rest
      return ('\\' :: letter :: quoted, after)
  | c :: rest =>
      if c = '\\' ∨ c.toNat < 32 then none
      else do
        let (quoted, after) ← scanQuoted rest
        return (c :: quoted, after)

/-- The token at the start of a text that does not start with a blank, and the
rest of the text. -/
def scan : List Char → Option (Token × List Char)
  | '[' :: rest => some (openArray, rest)
  | ']' :: rest => some (closeArray, rest)
  | '\x7b' :: rest => some (openObject, rest)
  | '\x7d' :: rest => some (closeObject, rest)
  | ',' :: rest => some (comma, rest)
  | ':' :: rest => some (colon, rest)
  | 'n' :: 'u' :: 'l' :: 'l' :: rest => some (null, rest)
  | 't' :: 'r' :: 'u' :: 'e' :: rest => some (bool true, rest)
  | 'f' :: 'a' :: 'l' :: 's' :: 'e' :: rest => some (bool false, rest)
  | '"' :: rest => (scanQuoted rest).map fun (quoted, after) => (string quoted, after)
  | text => (Numeral.scan text).map fun (numeral, after) => (number numeral, after)

theorem length_of_scanQuoted {text quoted rest : List Char}
    (scanned : scanQuoted text = some (quoted, rest)) : rest.length < text.length := by
  fun_induction scanQuoted text generalizing quoted rest <;>
    simp only [Option.bind_eq_bind, Option.bind_eq_some_iff, Option.pure_def,
      Option.some.injEq, Prod.mk.injEq, reduceCtorEq, List.length_cons] at scanned ⊢
  all_goals grind

/-- A token takes up some of the text. -/
theorem length_of_scan {text rest : List Char} {token : Token}
    (scanned : scan text = some (token, rest)) : rest.length < text.length := by
  unfold scan at scanned
  split at scanned
  case h_10 =>
    obtain ⟨⟨quoted, after⟩, first, second⟩ := Option.map_eq_some_iff.mp scanned
    have shorter := length_of_scanQuoted first
    simp_all
    omega
  case h_11 =>
    obtain ⟨⟨numeral, after⟩, first, second⟩ := Option.map_eq_some_iff.mp scanned
    have shorter := Numeral.length_of_scan first
    simp_all
  all_goals
    simp only [Option.some.injEq, Prod.mk.injEq] at scanned
    simp only [← scanned.2, List.length_cons]
    omega

/-- The tokens of a text; none if some part of it is no token. -/
def ofText (text : List Char) : Option (List Token) :=
  match text with
  | [] => some []
  | c :: rest =>
      if isBlank c then ofText rest
      else
        match _scanned : scan (c :: rest) with
        | none => none
        | some (token, after) => (ofText after).map (token :: ·)
termination_by text.length
decreasing_by
  · exact Nat.lt_succ_self rest.length
  · exact length_of_scan ‹scan (c :: rest) = some (token, after)›

end Token
end TensorGraph.Json
