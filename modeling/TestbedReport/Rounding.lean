import TestbedReport.Scalar

/-!
# Rounding of Measurements

The readable reports show two decimals. Two roundings lead there, and both take
a value exactly between two candidates away from zero.

A latency that the server gives as a whole number of microseconds is rounded
while it is still an integer, to hundredths of a millisecond, and only the
result becomes a floating-point number. The integers have 64 bits, so a step can
leave their range. The computation is written once, over what becomes of the
exact result of a step: the program as it is delivered wraps it around, and as it
is tested it stops there.

Any other number is rounded in floating point. There a value such as 1.005 is
stored slightly below itself, so the scaled value is first snapped to nine
decimals and the half is a half again.

## Main definitions

* `wrapped`, `fitting?`: What becomes of the exact result of a step.
* `hundredthsOfMillis`: Whole microseconds in hundredths of a millisecond.
* `millisOfMicros`: Whole microseconds in milliseconds, to two decimals.
* `toWhole`: A floating-point number to the nearest whole number.
* `toHundredths`: A floating-point number to two decimals.
-/

namespace TestbedReport

namespace Rounding

/-- The exact result of a step in 64 bits, wrapped around if it needs more. -/
def wrapped (exact : Int) : Id Int64 :=
  pure (Int64.ofInt exact)

/-- The exact result of a step in 64 bits, if it fits. -/
def fitting? (exact : Int) : Option Int64 :=
  if -0x8000000000000000 ≤ exact ∧ exact ≤ 0x7fffffffffffffff then some (Int64.ofInt exact)
  else none

/-- Whole microseconds in hundredths of a millisecond, to the nearest, halves
    away from zero. Every step goes through `word`, which makes 64 bits of its
    exact result. -/
def hundredthsOfMillis {m : Type → Type} [Monad m] (word : Int → m Int64) (micros : Int64) :
    m Int64 := do
  let magnitude ← word micros.toInt.natAbs
  let raised ← word (magnitude.toInt + 5)
  let quotient ← word (raised.toInt.tdiv 10)
  word (micros.toInt.sign * quotient.toInt)

/-- Whole microseconds in milliseconds, to two decimals. -/
def millisOfMicros (micros : Int64) : Float :=
  Float.ofInt (hundredthsOfMillis wrapped micros).run.toInt / 100.0

/-- A number to the nearest whole number, halves away from zero. A number that is
    not finite stays as it is, and so does one whose last bit is worth a whole
    number; the sign stays also where zero is the nearest. -/
def toWhole (x : Float) : Float :=
  match Decimal.kindOf x with
  | .finite negative (some v) =>
    if 0 ≤ v.exponent then x
    else
      -- The number is `significand / unit`, and half of a unit is added before the division.
      let unit := Nat.pow 2 v.exponent.natAbs
      let whole := Float.ofNat ((2 * v.significand + unit) / (2 * unit))
      if negative then -whole else whole
  | _ => x

/-- A number to two decimals, halves away from zero, where a number within half
    of a billionth of a half counts as one. -/
def toHundredths (x : Float) : Float :=
  let scaled := x * 100.0
  let snapped := toWhole (scaled * 1e9) / 1e9
  toWhole snapped / 100.0

end Rounding

end TestbedReport
