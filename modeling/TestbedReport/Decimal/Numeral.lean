import TestbedReport.Decimal.Whole

/-!
# Decimal Numerals as Floating-Point Numbers

The text of a cell can be a number: the server sends some measurements as
strings. Such a text is read as a decimal numeral, rounded to the nearest
floating-point number, or as one of the words for infinity and for "not a
number", in any letter case.

A numeral is split into its parts first and valued afterwards. The parts are
exact, so nothing is lost before the one rounding at the end. The rounding needs
the power of ten as an exact number; an exponent far outside of the range of
floating-point numbers is therefore answered at once.

## Main definitions

* `Numeral`: Whole digits, fraction digits and exponent.
* `Numeral.read?`: The parts of a text, if it is a numeral.
* `Numeral.toFloat`: The nearest floating-point number.
* `toFloat?`: The number that a text stands for.
-/

namespace TestbedReport

namespace Decimal

/-- The number `whole.fraction · 10 ^ exponent`, by its digits. -/
structure Numeral where
  whole : List Char
  fraction : List Char
  exponent : Int
deriving DecidableEq

/-- Splits off the digits at the front of a text. -/
def spanDigits (cs : List Char) : List Char × List Char :=
  (cs.takeWhile Char.isDigit, cs.dropWhile Char.isDigit)

/-- Splits off a sign at the front of a text: whether it is a minus sign, and what is
    behind it. -/
def spanSign : List Char → Bool × List Char
  | '-' :: rest => (true, rest)
  | '+' :: rest => (false, rest)
  | cs => (false, cs)

/-- A text that is nothing or an exponent: `e` or `E`, an optional sign, and at
    least one digit. -/
def readExponent? : List Char → Option Int
  | [] => some 0
  | c :: rest =>
    if c = 'e' ∨ c = 'E' then
      let (negative, digits) := spanSign rest
      (toNat? digits).map fun (n : Nat) => if negative then -(n : Int) else (n : Int)
    else none

/-- The parts of an unsigned numeral: digits with an optional point, at least one
    digit on one side of it, and an optional exponent. -/
def Numeral.read? (cs : List Char) : Option Numeral :=
  let (whole, afterWhole) := spanDigits cs
  let (fraction, rest) := match afterWhole with
    | '.' :: afterPoint => spanDigits afterPoint
    | _ => ([], afterWhole)
  if whole.isEmpty && fraction.isEmpty then none
  else (readExponent? rest).map fun exponent => ⟨whole, fraction, exponent⟩

/-- The nearest floating-point number. All digits together are a whole number,
    whose exponent the fraction digits lower. Below `10 ^ -400` the nearest is
    zero, and from `10 ^ 400` on it is infinity. -/
def Numeral.toFloat (n : Numeral) : Float :=
  let digits := n.whole ++ n.fraction
  let significand := Nat.ofDigitChars 10 digits 0
  let exponent : Int := n.exponent - n.fraction.length
  let magnitude : Int := exponent + (ofNat significand).length
  if significand = 0 then 0.0
  else if magnitude < -400 then 0.0
  else if 400 < magnitude then 1.0 / 0.0
  else Float.ofScientific significand (exponent < 0) exponent.natAbs

/-- The number of an unsigned text: a word or a numeral. -/
def unsignedToFloat? (cs : List Char) : Option Float :=
  let word := cs.map Char.toLower
  if word = "inf".toList ∨ word = "infinity".toList then some (1.0 / 0.0)
  else if word = "nan".toList then some (0.0 / 0.0)
  else (Numeral.read? cs).map Numeral.toFloat

/-- The number that a text stands for, if any: a word or a numeral after an
    optional sign. -/
def toFloat? (cs : List Char) : Option Float :=
  let (negative, unsigned) := spanSign cs
  (unsignedToFloat? unsigned).map fun x => if negative then -x else x

end Decimal

end TestbedReport
