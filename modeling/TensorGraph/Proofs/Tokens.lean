import Mathlib.Tactic.Cases
import Mathlib.Tactic.SplitIfs
import TensorGraph.Json.Reader
import TensorGraph.Json.Writer

/-!
# Written tokens are read back

Each token that the writer puts down is scanned as that token, whatever follows it in a
written text, and the blanks between tokens are passed over.  Strings are read back however
they were escaped, and an integer ends where its digits end.
-/

namespace TensorGraph.Json

open Text.Decimal (digits isDigit)

namespace Escape

open Text.Hexadecimal (digitChar digitValue? digitValue?_digitChar)

/-- The escape of a control character by its number. -/
theorem unit?_control {c : Char} (control : c.toNat < 32) :
    unit? '0' '0' (digitChar (c.toNat / 16)) (digitChar (c.toNat % 16)) = some c.toNat := by
  have zero : digitValue? '0' = some 0 := by decide
  have high := digitValue?_digitChar (by omega : c.toNat / 16 < 16)
  have low := digitValue?_digitChar (by omega : c.toNat % 16 < 16)
  simp only [unit?, zero, high, low, Option.bind_eq_bind, Option.bind_some, Option.pure_def,
    Option.some.injEq]
  omega

/-- An escape that spells no number is refused. -/
theorem decode_of_unit?_eq_none {a b c d : Char} (unspelt : unit? a b c d = none)
    (rest : List Char) : decode ('\\' :: 'u' :: a :: b :: c :: d :: rest) = none := by
  by_cases another : ∃ e f g h later, rest = '\\' :: 'u' :: e :: f :: g :: h :: later
  · obtain ⟨e, f, g, h, later, rfl⟩ := another
    rw [decode, unspelt]
    rfl
  · rw [decode, unspelt]
    · rfl
    · exact fun e f g h later same => another ⟨e, f, g, h, later, same⟩

/-- A number that is no half of a surrogate pair stands for one character, also where the
escape of another number follows. -/
theorem decode_unit {a b c d : Char} {number : Nat} (spelt : unit? a b c d = some number)
    (alone : isLeading number = false ∧ isTrailing number = false) (rest : List Char) :
    decode ('\\' :: 'u' :: a :: b :: c :: d :: rest) =
      (decode rest).map (Char.ofNat number :: ·) := by
  by_cases another : ∃ e f g h later, rest = '\\' :: 'u' :: e :: f :: g :: h :: later
  · obtain ⟨e, f, g, h, later, rfl⟩ := another
    rw [decode, spelt]
    cases second : unit? e f g h with
    | none => simp [decode_of_unit?_eq_none second]
    | some other =>
        simp only [Option.bind_eq_bind, Option.bind_some, alone.1, alone.2, Bool.false_and,
          Bool.or_self, Bool.false_eq_true, if_false]
        cases decode ('\\' :: 'u' :: e :: f :: g :: h :: later) <;> rfl
  · rw [decode, spelt]
    · simp only [Option.bind_eq_bind, Option.bind_some, alone.1, alone.2, Bool.or_self,
        Bool.false_eq_true, if_false]
      cases decode rest <;> rfl
    · exact fun e f g h later same => another ⟨e, f, g, h, later, same⟩

theorem decode_simple {letter c : Char} (spelt : simple? letter = some c) (rest : List Char) :
    decode ('\\' :: letter :: rest) = (decode rest).map (c :: ·) := by
  have noUnit : letter ≠ 'u' := by
    rintro rfl
    cases spelt
  rw [decode, spelt]
  · cases decode rest <;> rfl
  · exact fun _ _ _ _ _ _ _ _ _ same => absurd same noUnit
  · exact fun _ _ _ _ _ same => absurd same noUnit

theorem decode_plain {c : Char} (plain : c ≠ '\\') (rest : List Char) :
    decode (c :: rest) = (decode rest).map (c :: ·) := by
  rw [decode, if_neg plain]
  · cases decode rest <;> rfl
  · exact fun _ _ _ _ _ _ _ _ _ same => absurd same plain
  · exact fun _ _ _ _ _ same => absurd same plain
  · exact fun _ _ same => absurd same plain

/-- The ways in which a character is written. -/
theorem character_cases (c : Char) :
    (∃ letter, simple? letter = some c ∧ character c = ['\\', letter]) ∨
    (c.toNat < 32 ∧ character c =
      ['\\', 'u', '0', '0', digitChar (c.toNat / 16), digitChar (c.toNat % 16)]) ∨
    (c ≠ '"' ∧ c ≠ '\\' ∧ ¬ c.toNat < 32 ∧ character c = [c]) := by
  rw [character]
  split_ifs with quote backslash backspace feed newline carriage tab control
  · exact Or.inl ⟨'"', by rw [quote]; rfl, rfl⟩
  · exact Or.inl ⟨'\\', by rw [backslash]; rfl, rfl⟩
  · exact Or.inl ⟨'b', by rw [backspace]; rfl, rfl⟩
  · exact Or.inl ⟨'f', by rw [feed]; rfl, rfl⟩
  · exact Or.inl ⟨'n', by rw [newline]; rfl, rfl⟩
  · exact Or.inl ⟨'r', by rw [carriage]; rfl, rfl⟩
  · exact Or.inl ⟨'t', by rw [tab]; rfl, rfl⟩
  · exact Or.inr (Or.inl ⟨control, rfl⟩)
  · exact Or.inr (Or.inr ⟨quote, backslash, control, rfl⟩)

theorem decode_character (c : Char) (rest : List Char) :
    decode (character c ++ rest) = (decode rest).map (c :: ·) := by
  rcases character_cases c with ⟨letter, spelt, written⟩ | ⟨control, written⟩ |
    ⟨-, plain, -, written⟩ <;> rw [written]
  · exact decode_simple spelt rest
  · have alone : isLeading c.toNat = false ∧ isTrailing c.toNat = false := by
      simp only [isLeading, isTrailing, Bool.and_eq_false_iff, decide_eq_false_iff_not]
      omega
    have decoded := decode_unit (unit?_control control) alone rest
    rwa [Char.ofNat_toNat] at decoded
  · exact decode_plain plain rest

/-- Every text is read back from its written form. -/
theorem decode_encode (text : List Char) : decode (encode text) = some text := by
  induction text with
  | nil => rfl
  | cons c text ih =>
      rw [encode, List.flatMap_cons, decode_character]
      rw [encode] at ih
      rw [ih, Option.map_some]

end Escape

namespace Numeral

/-- No number goes on at the start of this text. -/
def EndsAt : List Char → Prop
  | [] => True
  | c :: _ => isDigit c = false ∧ c ≠ '.' ∧ c ≠ 'e' ∧ c ≠ 'E'

variable {row rest : List Char}

theorem span_append (allDigits : ∀ c ∈ row, isDigit c = true) (ends : EndsAt rest) :
    span (row ++ rest) = (row, rest) := by
  have stops : rest.takeWhile isDigit = [] ∧ rest.dropWhile isDigit = rest := by
    cases rest with
    | nil => exact ⟨rfl, rfl⟩
    | cons c rest =>
        have noDigit : ¬ isDigit c = true := by simp [ends.1]
        exact ⟨List.takeWhile_cons_of_neg noDigit, List.dropWhile_cons_of_neg noDigit⟩
  rw [span, List.takeWhile_append_of_pos allDigits, List.dropWhile_append_of_pos allDigits,
    stops.1, stops.2, List.append_nil]

/-- The digits of a number are its whole digits, since no zero stands in front of them. -/
theorem scanWhole_digits (number : Nat) (ends : EndsAt rest) :
    scanWhole (digits number ++ rest) = some (digits number, rest) := by
  by_cases zero : number = 0
  · rw [zero, Text.Decimal.digits_zero]
    rfl
  · have spanned := span_append (Text.Decimal.isDigit_of_mem_digits number) ends
    obtain ⟨first, others, shape, nonzero⟩ := Text.Decimal.digits_eq_cons number
    rw [shape, List.cons_append] at spanned ⊢
    rw [scanWhole, spanned]
    exact fun _ same => nonzero zero (List.cons.inj same).1

theorem scanFraction_of_endsAt (ends : EndsAt rest) : scanFraction rest = some ([], rest) := by
  unfold scanFraction
  split
  · exact absurd rfl ends.2.1
  · rfl

theorem scanExponent_of_endsAt (ends : EndsAt rest) : scanExponent rest = some (none, rest) := by
  cases rest with
  | nil => rfl
  | cons c rest =>
      unfold scanExponent
      split <;> simp_all [EndsAt]

/-- The written form of an integer starts with a minus sign or a digit. -/
theorem text_integer_eq_cons (negative : Bool) (number : Nat) :
    ∃ first rest, { negative, whole := digits number : Numeral }.text = first :: rest ∧
      (first = '-' ∨ isDigit first = true) := by
  obtain ⟨first, others, shape, -⟩ := Text.Decimal.digits_eq_cons number
  cases negative with
  | true => exact ⟨'-', _, rfl, Or.inl rfl⟩
  | false =>
      have isFirst := Text.Decimal.isDigit_of_mem_digits number first
      rw [shape] at isFirst
      refine ⟨first, others, ?_, Or.inr (isFirst List.mem_cons_self)⟩
      simp [text, shape]

/-- An integer is read back where its digits end. -/
theorem scan_integer (negative : Bool) (number : Nat) (ends : EndsAt rest) :
    scan ({ negative, whole := digits number : Numeral }.text ++ rest) =
      some ({ negative, whole := digits number }, rest) := by
  have unsigned : scanUnsigned negative (digits number ++ rest) =
      some ({ negative, whole := digits number }, rest) := by
    rw [scanUnsigned, scanWhole_digits number ends]
    simp only [Option.bind_eq_bind, Option.bind_some, scanFraction_of_endsAt ends,
      scanExponent_of_endsAt ends, Option.pure_def]
  rw [← unsigned]
  cases negative with
  | true => simp [text, scan]
  | false =>
      obtain ⟨first, others, shape, -⟩ := Text.Decimal.digits_eq_cons number
      have isFirst := Text.Decimal.isDigit_of_mem_digits number first
      rw [shape] at isFirst
      have noSign : first ≠ '-' := by
        rintro rfl
        cases isFirst List.mem_cons_self
      simp only [text, shape, Bool.false_eq_true, if_false, List.nil_append, if_true,
        List.append_nil, List.cons_append]
      rw [scan]
      exact fun _ same => noSign (List.cons.inj same).1

end Numeral

namespace Token

open Escape (character character_cases encode unit?_control)

/-- The written form of a character is passed over as a part of a string. -/
theorem scanQuoted_character (c : Char) (rest : List Char) :
    scanQuoted (character c ++ rest) =
      (scanQuoted rest).map fun (quoted, after) => (character c ++ quoted, after) := by
  rcases character_cases c with ⟨letter, spelt, written⟩ | ⟨control, written⟩ |
    ⟨noQuote, plain, visible, written⟩ <;> rw [written]
  · have noUnit : letter ≠ 'u' := by
      rintro rfl
      cases spelt
    change scanQuoted ('\\' :: letter :: rest) = _
    rw [scanQuoted, spelt]
    · cases scanQuoted rest <;> rfl
    · exact fun _ _ _ _ _ same => absurd same noUnit
  · change scanQuoted ('\\' :: 'u' :: '0' :: '0' :: _ :: _ :: rest) = _
    rw [scanQuoted, unit?_control control]
    cases scanQuoted rest <;> rfl
  · change scanQuoted (c :: rest) = _
    rw [scanQuoted, if_neg (by simp [plain, visible])]
    · cases scanQuoted rest <;> rfl
    · exact noQuote
    · exact fun _ _ _ _ _ same => absurd same plain
    · exact fun _ _ same => absurd same plain

/-- The written form of a text ends at the quote that closes it. -/
theorem scanQuoted_encode (text rest : List Char) :
    scanQuoted (encode text ++ '"' :: rest) = some (encode text, rest) := by
  induction text with
  | nil => rfl
  | cons c text ih =>
      rw [encode] at ih
      rw [encode, List.flatMap_cons, List.append_assoc, scanQuoted_character, ih, Option.map_some]

/-- The tokens of written texts: strings escaped as they are written, and integers. -/
inductive Written : Token → Prop where
  | openArray : Written openArray
  | closeArray : Written closeArray
  | openObject : Written openObject
  | closeObject : Written closeObject
  | comma : Written comma
  | colon : Written colon
  | null : Written null
  | bool (truth : Bool) : Written (bool truth)
  | integer (negative : Bool) (magnitude : Nat) :
      Written (number { negative, whole := digits magnitude })
  | string (text : List Char) : Written (string (encode text))

/-- The token ends where this text follows it. -/
def EndsBefore (rest : List Char) : Token → Prop
  | number _ => Numeral.EndsAt rest
  | _ => True

variable {token : Token} {rest : List Char}

/-- Digits and minus signs start no other token than a number. -/
theorem scan_of_integer {first : Char} {others : List Char}
    (starts : first = '-' ∨ isDigit first = true) :
    scan (first :: others) =
      (Numeral.scan (first :: others)).map fun (numeral, after) => (number numeral, after) := by
  unfold scan
  split
  case h_11 => rfl
  all_goals
    rename_i same
    obtain ⟨rfl, -⟩ := List.cons.inj same
    rcases starts with starts | starts <;> cases starts

namespace Written

/-- No token starts with a blank. -/
theorem text_eq_cons (written : token.Written) :
    ∃ first others, token.text = first :: others ∧ isBlank first = false := by
  cases written with
  | bool truth => cases truth <;> exact ⟨_, _, rfl, rfl⟩
  | integer negative magnitude =>
      obtain ⟨first, others, shape, starts⟩ := Numeral.text_integer_eq_cons negative magnitude
      refine ⟨first, others, shape, ?_⟩
      simp only [isBlank, Bool.or_eq_false_iff, decide_eq_false_iff_not]
      refine ⟨⟨⟨?_, ?_⟩, ?_⟩, ?_⟩ <;> rintro rfl <;> rcases starts with starts | starts <;>
        cases starts
  | _ => exact ⟨_, _, rfl, rfl⟩

/-- A written token is scanned as that token. -/
theorem scan_text (written : token.Written) (ends : token.EndsBefore rest) :
    scan (token.text ++ rest) = some (token, rest) := by
  cases written with
  | bool truth => cases truth <;> rfl
  | integer negative magnitude =>
      obtain ⟨first, others, shape, starts⟩ := Numeral.text_integer_eq_cons negative magnitude
      have scanned := Numeral.scan_integer negative magnitude ends
      rw [shape, List.cons_append] at scanned
      rw [text, shape, List.cons_append, scan_of_integer starts, scanned, Option.map_some]
  | string text =>
      change (scanQuoted ((encode text ++ ['"']) ++ rest)).map _ = _
      rw [List.append_assoc, List.singleton_append, scanQuoted_encode, Option.map_some]
  | _ => rfl

/-- A written token is the first token of the text that it stands in front of. -/
theorem ofText_before (written : token.Written) (ends : token.EndsBefore rest) :
    ofText (token.before rest) = (ofText rest).map (token :: ·) := by
  have scanned := written.scan_text ends
  obtain ⟨first, others, shape, visible⟩ := written.text_eq_cons
  rw [before]
  rw [shape, List.cons_append] at scanned ⊢
  rw [ofText, visible, if_neg Bool.false_ne_true]
  split
  · next refused =>
    rw [scanned] at refused
    cases refused
  · next found =>
    rw [scanned] at found
    cases found
    rfl

end Written

/-- Blanks are no tokens. -/
theorem ofText_blanks {blanks : List Char} (allBlank : ∀ c ∈ blanks, isBlank c = true)
    (rest : List Char) : ofText (blanks ++ rest) = ofText rest := by
  induction blanks with
  | nil => rfl
  | cons c blanks ih =>
      rw [List.cons_append, ofText, if_pos (allBlank c List.mem_cons_self)]
      exact ih fun c member => allBlank c (List.mem_cons_of_mem _ member)

end Token
end TensorGraph.Json
