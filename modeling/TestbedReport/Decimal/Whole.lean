/-!
# Whole Numbers in Decimal

Job ids, day counts and message lengths travel as decimal numerals: in request
paths, on the command line and in JSON. Writing is the standard library's digit
list, so that its lemmas on digits apply. Reading is strict, since a numeral is
either a number or a mistake to be reported: digits only, at least one, with a
sign only where the reader says so.

## Main definitions

* `ofNat`, `ofInt`: The numeral of a number.
* `toNat?`: The number of an unsigned numeral.
* `toInt?`: The number of a numeral with an optional sign.

## Theorems

* `toNat?_ofNat`: A written natural number reads back.
* `toInt?_ofInt`: A written integer reads back.
-/

namespace TestbedReport

namespace Decimal

/-- The digits of a natural number, without leading zeros. -/
def ofNat (n : Nat) : List Char :=
  Nat.toDigits 10 n

/-- The digits of an integer, after a minus sign if it is negative. -/
def ofInt : Int → List Char
  | .ofNat n => ofNat n
  | .negSucc n => '-' :: ofNat (n + 1)

/-- Digits alone make a natural number; leading zeros are no harm. -/
def toNat? (cs : List Char) : Option Nat :=
  if !cs.isEmpty && cs.all Char.isDigit then some (Nat.ofDigitChars 10 cs 0) else none

/-- Digits after an optional sign make an integer. -/
def toInt? : List Char → Option Int
  | '-' :: cs => (toNat? cs).map fun n => -(n : Int)
  | '+' :: cs => (toNat? cs).map Int.ofNat
  | cs => (toNat? cs).map Int.ofNat

theorem ofNat_ne_nil (n : Nat) : ofNat n ≠ [] := by
  simp [ofNat]

theorem all_isDigit_ofNat (n : Nat) : (ofNat n).all Char.isDigit := by
  rw [List.all_eq_true]
  intro c hc
  exact Nat.isDigit_of_mem_toDigits (by decide) (by decide) hc

theorem toNat?_ofNat (n : Nat) : toNat? (ofNat n) = some n := by
  have hne : (ofNat n).isEmpty = false := by simp [ofNat_ne_nil]
  rw [toNat?, hne, all_isDigit_ofNat]
  simp [ofNat, Nat.ofDigitChars_toDigits]

/-- A numeral of a natural number does not begin with a sign. -/
theorem toInt?_ofNat (n : Nat) : toInt? (ofNat n) = some (n : Int) := by
  have hdigit := all_isDigit_ofNat n
  have hread := toNat?_ofNat n
  generalize ofNat n = cs at hdigit hread
  -- With either sign in front, the first character would be no digit.
  unfold toInt?
  split
  · simp [Char.isDigit] at hdigit
  · simp [Char.isDigit] at hdigit
  · simp [hread]

theorem toInt?_ofInt (i : Int) : toInt? (ofInt i) = some i := by
  cases i with
  | ofNat n => exact toInt?_ofNat n
  | negSucc n => simp [ofInt, toInt?, toNat?_ofNat, Int.negSucc_eq]

end Decimal

end TestbedReport
