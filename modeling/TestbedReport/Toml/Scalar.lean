import TestbedReport.Toml.Basic
import TestbedReport.Toml.Text
import TestbedReport.Decimal.Numeral

/-!
# Numbers, Truth Values and Moments of TOML

A value that begins with no quote or bracket runs up to the next character that
cannot belong to it, and as a whole it must be one of the forms below. Digits
can be grouped by single underscores. A whole number has no leading zeros; a
number with a fraction or an exponent must not be too large to be finite.

## Main definitions

* `grouped?`: Digits with underscores between them.
* `integer?`, `float?`, `moment?`: The forms.
* `scalar?`: A value in one of the forms, with what follows it.
-/

namespace TestbedReport

namespace Toml

/-- The digits of a text in which single underscores may stand between digits.
    The first argument is whether a digit came right before. -/
def groupedFrom? (isDigit : Char → Bool) : Bool → List Char → Option (List Char)
  | afterDigit, [] => if afterDigit then some [] else none
  | afterDigit, c :: rest =>
    if isDigit c then (groupedFrom? isDigit true rest).map (c :: ·)
    else if c = '_' && afterDigit then groupedFrom? isDigit false rest
    else none

/-- The digits of a text that is nothing but grouped digits. -/
def grouped? (isDigit : Char → Bool) (cs : List Char) : Option (List Char) :=
  groupedFrom? isDigit false cs

/-- A text without its sign, and whether that is a minus. -/
def splitSign : List Char → Bool × List Char
  | '-' :: cs => (true, cs)
  | '+' :: cs => (false, cs)
  | cs => (false, cs)

/-- Grouped decimal digits without a leading zero. -/
def wholeDigits? (cs : List Char) : Option (List Char) :=
  match grouped? Char.isDigit cs with
  | some ('0' :: _ :: _) => none
  | digits => digits

/-- The number of digits that are known to be digits to the base. -/
def numberOf (base : Nat) (digits : List Char) : Nat :=
  (Text.valueIn? base digits).getD 0

/-- The base that a letter behind a zero stands for. -/
def baseOf? : Char → Option Nat
  | 'x' => some 16
  | 'o' => some 8
  | 'b' => some 2
  | _ => none

/-- A whole number: decimal with an optional sign, or to another base. -/
def integer? (cs : List Char) : Option Int :=
  let decimal : Option Int :=
    let (negative, digits) := splitSign cs
    (wholeDigits? digits).map fun digits =>
      let magnitude : Int := numberOf 10 digits
      if negative then -magnitude else magnitude
  let value := match cs with
    | '0' :: letter :: digits =>
      match baseOf? letter with
      | some base => (grouped? (Text.isDigitIn base) digits).map fun ds => (numberOf base ds : Int)
      | none => decimal
    | _ => decimal
  value.filter fun n =>
    -0x80000000000000000000000000000000 ≤ n && n ≤ 0xffffffffffffffffffffffffffffffff

/-- An unsigned number with a fraction, an exponent, or both. -/
def numeral? (cs : List Char) : Option Decimal.Numeral := do
  let mantissa := cs.takeWhile fun c => c ≠ 'e' && c ≠ 'E'
  let whole ← wholeDigits? (mantissa.takeWhile (· ≠ '.'))
  let fraction ← match mantissa.dropWhile (· ≠ '.') with
    | _ :: digits => grouped? Char.isDigit digits
    | [] => some []
  let exponent ← match cs.drop mantissa.length with
    | _ :: exponent =>
      let (negative, digits) := splitSign exponent
      (grouped? Char.isDigit digits).map fun digits =>
        let magnitude : Int := numberOf 10 digits
        if negative then -magnitude else magnitude
    | [] => if fraction.isEmpty then none else some 0
  return ⟨whole, fraction, exponent⟩

/-- A number with a fraction or an exponent, or a word for no such number. -/
def float? (cs : List Char) : Option Float := do
  let (negative, unsigned) := splitSign cs
  let magnitude ←
    if unsigned = "inf".toList then some (1.0 / 0.0)
    else if unsigned = "nan".toList then some (0.0 / 0.0)
    else
      let value := (← numeral? unsigned).toFloat
      if value.isInf then none else some value
  return if negative then -magnitude else magnitude

/-- The number of exactly so many decimal digits, and what follows them. -/
def digits? (count : Nat) (cs : List Char) : Option (Nat × List Char) :=
  let digits := cs.take count
  if digits.length = count ∧ digits.all Char.isDigit then
    some (numberOf 10 digits, cs.drop count)
  else none

/-- The characters after a mark. -/
def after? (mark : Char) : List Char → Option (List Char)
  | c :: rest => if c = mark then some rest else none
  | [] => none

/-- The days of a month. -/
def daysIn (year month : Nat) : Nat :=
  if month = 2 then
    if year % 4 = 0 ∧ (year % 100 ≠ 0 ∨ year % 400 = 0) then 29 else 28
  else if month = 4 ∨ month = 6 ∨ month = 9 ∨ month = 11 then 30
  else 31

/-- The characters after a date. -/
def date? (cs : List Char) : Option (List Char) := do
  let (year, cs) ← digits? 4 cs
  let (month, cs) ← digits? 2 (← after? '-' cs)
  let (day, cs) ← digits? 2 (← after? '-' cs)
  if 1 ≤ month ∧ month ≤ 12 ∧ 1 ≤ day ∧ day ≤ daysIn year month then some cs else none

/-- The characters after hours and minutes. -/
def clock? (cs : List Char) : Option (List Char) := do
  let (hour, cs) ← digits? 2 cs
  let (minute, cs) ← digits? 2 (← after? ':' cs)
  if hour < 24 ∧ minute < 60 then some cs else none

/-- The characters after a time of day, with or without seconds. -/
def time? (cs : List Char) : Option (List Char) := do
  let cs ← clock? cs
  match cs with
  | ':' :: cs =>
    let (second, cs) ← digits? 2 cs
    if 60 < second then none
    else match cs with
      | '.' :: cs =>
        let fraction := cs.takeWhile Char.isDigit
        if fraction.isEmpty then none else some (cs.drop fraction.length)
      | cs => some cs
  | cs => some cs

/-- Whether a text is nothing or the distance to universal time. -/
def isOffset : List Char → Bool
  | [] => true
  | [c] => c = 'Z' || c = 'z'
  | sign :: cs => (sign = '+' || sign = '-') && clock? cs = some []

/-- Whether a text is a date, a time, or a date with a time. -/
def isMoment (cs : List Char) : Bool :=
  match date? cs with
  | some [] => true
  | some (mark :: rest) =>
    (mark = 'T' || mark = 't' || mark = ' ') &&
      match time? rest with
      | some offset => isOffset offset
      | none => false
  | none => time? cs = some []

/-- The value of a text in one of the forms. -/
def scalarOf? (cs : List Char) : Option Toml :=
  if cs = "true".toList then some (.bool true)
  else if cs = "false".toList then some (.bool false)
  else if isMoment cs then some (.moment (String.ofList cs))
  else match integer? cs with
    | some value => some (.integer value)
    | none => (float? cs).map .float

/-- Whether a character can belong to a value without quotes. -/
def inScalar (c : Char) : Bool :=
  !isGap c && c ≠ '\n' && c ≠ '\r' && c ≠ ',' && c ≠ ']' && c ≠ '\x7d' && c ≠ '#'

/-- A value without quotes or brackets. A blank between a date and a time belongs
    to the value. -/
def scalar? (cs : List Char) : Option (Toml × List Char) :=
  let run := cs.takeWhile inScalar
  let rest := cs.dropWhile inScalar
  let alone := (scalarOf? run).map fun value => (value, rest)
  match date? run, rest with
  | some [], ' ' :: c :: more =>
    -- A date and a blank: only a digit behind them makes it a moment.
    if c.isDigit then
      let time := (c :: more).takeWhile inScalar
      (scalarOf? (run ++ ' ' :: time)).map fun value => (value, (c :: more).dropWhile inScalar)
    else alone
  | _, _ => alone

end Toml

end TestbedReport
