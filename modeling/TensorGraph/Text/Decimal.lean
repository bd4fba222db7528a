/-!
# Decimal numerals

Natural numbers and integers as decimal digits, without leading zeros, lists of
them in brackets, and the value of a row of digits.  Reading the digits of a
number gives the number back.  Integers of 64 bits lie below the limits of a
machine word, without and with a sign.
-/

namespace TensorGraph

/-- The first number that does not fit an unsigned word of 64 bits. -/
def wordLimit : Nat :=
  18446744073709551616

/-- The first number that does not fit a signed word; its negation does. -/
def signedLimit : Nat :=
  Nat.pow 2 63

namespace Text.Decimal

/-- The character of a decimal digit. -/
def digitChar (digit : Nat) : Char :=
  Char.ofNat (48 + digit)

/-- The digits of a natural number, most significant first. -/
def digits (number : Nat) : List Char :=
  if number < 10 then [digitChar number]
  else digits (number / 10) ++ [digitChar (number % 10)]

/-- An integer: a minus sign before the digits when it is negative. -/
def ofInt : Int → List Char
  | .ofNat number => digits number
  | .negSucc number => '-' :: digits (number + 1)

/-- A natural number as text. -/
def text (number : Nat) : String :=
  String.ofList (digits number)

/-- An integer as text. -/
def intText (number : Int) : String :=
  String.ofList (ofInt number)

/-- Whether a character is a decimal digit. -/
def isDigit (character : Char) : Bool :=
  '0' ≤ character && character ≤ '9'

/-- The number that a row of digits denotes. -/
def value (row : List Char) : Nat :=
  row.foldl (fun total character => 10 * total + (character.toNat - 48)) 0

theorem value_concat (row : List Char) (last : Char) :
    value (row ++ [last]) = 10 * value row + value [last] := by
  simp [value, List.foldl_append]

/-- More digits denote no smaller number. -/
theorem value_le_append (row later : List Char) : value row ≤ value (row ++ later) := by
  induction later generalizing row with
  | nil => simp
  | cons digit later ih =>
      have longer := ih (row ++ [digit])
      rw [value_concat, List.append_assoc, List.singleton_append] at longer
      omega

theorem digitChar_toNat {digit : Nat} (small : digit < 10) :
    (digitChar digit).toNat - 48 = digit := by
  have every : ∀ d, d < 10 → (digitChar d).toNat - 48 = d := by decide
  exact every digit small

theorem isDigit_digitChar {digit : Nat} (small : digit < 10) :
    isDigit (digitChar digit) = true := by
  have every : ∀ d, d < 10 → isDigit (digitChar d) = true := by decide
  exact every digit small

/-- The digits of a number denote it. -/
theorem value_digits (number : Nat) : value (digits number) = number := by
  rw [digits]
  split
  · next small => simp [value, digitChar_toNat small]
  · have shorter := value_digits (number / 10)
    simp only [value, List.foldl_append, List.foldl_cons, List.foldl_nil] at shorter ⊢
    rw [shorter, digitChar_toNat (by omega)]
    omega
termination_by number
decreasing_by omega

/-- A numeral consists of digits only. -/
theorem isDigit_of_mem_digits (number : Nat) :
    ∀ character ∈ digits number, isDigit character = true := by
  rw [digits]
  split
  · next small =>
    intro character member
    rw [List.mem_singleton.mp member]
    exact isDigit_digitChar small
  · intro character member
    rcases List.mem_append.mp member with earlier | last
    · exact isDigit_of_mem_digits (number / 10) character earlier
    · rw [List.mem_singleton.mp last]
      exact isDigit_digitChar (by omega)
termination_by number
decreasing_by omega

theorem digits_zero : digits 0 = ['0'] := by
  rw [digits]
  rfl

/-- A numeral starts with a digit, which is not zero unless the number is. -/
theorem digits_eq_cons (number : Nat) :
    ∃ first rest, digits number = first :: rest ∧ (number ≠ 0 → first ≠ '0') := by
  rw [digits]
  split
  · next small =>
    have every : ∀ d, d < 10 → d ≠ 0 → digitChar d ≠ '0' := by decide
    exact ⟨_, [], rfl, every number small⟩
  · obtain ⟨first, rest, shorter, nonzero⟩ := digits_eq_cons (number / 10)
    rw [shorter]
    exact ⟨first, _, rfl, fun _ => nonzero (by omega)⟩
termination_by number
decreasing_by omega

end Text.Decimal

namespace Text

/-- The items in brackets. -/
def bracketed (items : List String) : String :=
  "[" ++ ", ".intercalate items ++ "]"

/-- A list of natural numbers. -/
def naturals (numbers : List Nat) : String :=
  bracketed (numbers.map Decimal.text)

/-- A list of integers. -/
def integers (numbers : List Int) : String :=
  bracketed (numbers.map Decimal.intText)

end Text

end TensorGraph
