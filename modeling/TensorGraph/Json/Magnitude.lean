import TensorGraph.Json
import TensorGraph.Text.Decimal

/-!
# Magnitudes

Real numbers in double precision.  A number is approximated by its leading
digits, as many as fit an unsigned word, times a power of ten.  Both factors are
rounded to 53 binary digits, and the number is finite if their product, rounded
in turn, stays below the largest power of two.
-/

namespace TensorGraph.Json

/-- The number of 53 binary digits that is nearest to a natural number; of two
equally near ones, the one with an even last digit. -/
def nearestDouble (number : Nat) : Nat :=
  let unit := Nat.pow 2 (number.log2 + 1 - 53)
  let below := number / unit
  let rest := number % unit
  if unit < 2 * rest ∨ (unit = 2 * rest ∧ below % 2 = 1) then (below + 1) * unit
  else below * unit

/-- The least magnitude that rounds to infinity in double precision. -/
def infinityBound : Nat :=
  Nat.pow 2 1024 - Nat.pow 2 970

/-- The largest power of ten that a number may be scaled by. -/
def greatestScale : Int := 308

namespace Numeral

/-- Append digits to a number as long as it fits an unsigned word; the number, and
how many of the digits are left. -/
def appendDigits (number : Nat) : List Char → Nat × Nat
  | [] => (number, 0)
  | digit :: digits =>
      let longer := 10 * number + Text.Decimal.value [digit]
      if longer < wordLimit then appendDigits longer digits else (number, digits.length + 1)

/-- The power of ten that is written. -/
def power (numeral : Numeral) : Int :=
  match numeral.exponent with
  | none => 0
  | some (false, digits) => Text.Decimal.value digits
  | some (true, digits) => -(Text.Decimal.value digits : Int)

/-- The leading digits as a number, and the power of ten that it is scaled
by. -/
def scaled (numeral : Numeral) : Nat × Int :=
  let (whole, left) := appendDigits 0 numeral.whole
  let (significand, unread) := appendDigits whole numeral.fraction
  (significand, numeral.power + left - (numeral.fraction.length - unread : Nat))

/-- The number is finite in double precision. -/
def isFinite (numeral : Numeral) : Bool :=
  let (significand, scale) := numeral.scaled
  if significand = 0 ∨ scale ≤ 0 then true
  else if greatestScale < scale then false
  else nearestDouble significand * nearestDouble (Nat.pow 10 scale.toNat) < infinityBound

/-- All digits are appended to others where the number that they denote together fits an
unsigned word. -/
theorem appendDigits_value {before row : List Char}
    (fits : Text.Decimal.value (before ++ row) < wordLimit) :
    appendDigits (Text.Decimal.value before) row = (Text.Decimal.value (before ++ row), 0) := by
  induction row generalizing before with
  | nil => rw [List.append_nil]; rfl
  | cons digit row ih =>
      have regroup : before ++ digit :: row = (before ++ [digit]) ++ row := by simp
      rw [regroup] at fits ⊢
      have first := Nat.lt_of_le_of_lt (Text.Decimal.value_le_append (before ++ [digit]) row) fits
      rw [appendDigits, ← Text.Decimal.value_concat]
      simp only [first, if_true]
      exact ih fits

end Numeral
end TensorGraph.Json
