import TestbedReport.Decimal.Shortest
import TestbedReport.Decimal.Whole

/-!
# Layout of Decimals

The report writes floating-point numbers in two places with two layouts of the
same shortest digits. A cell of a report is read by people and by plotting
scripts that may know no exponents, so a cell is always positional. A number in
a JSON text keeps a mark that it is not an integer and turns to an exponent when
the zeros would outnumber the digits.

A layout is a value: which exponents are positional, what follows a whole
number, and which way a tie between two shortest decimals goes. The two layouts
of the program are `cell` here and `Json.number` beside the JSON writer.

## Main definitions

* `Layout`: The choices of one layout.
* `Layout.write`: A number in a layout, if it is finite.
* `cell`: The layout of report cells.
* `cellText`: A number as the text of a cell.
-/

namespace TestbedReport

namespace Decimal

/-- The choices that make a text of shortest digits. -/
structure Layout where
  /-- Whether the greater of two equally near shortest decimals is taken; else
      the one with the even last digit is. -/
  tiesUp : Bool
  /-- Whether a number whose first digit has this exponent is positional. -/
  positional : Int → Bool
  /-- What follows the digits of a positional whole number. -/
  wholeMark : List Char

/-- Digits with a decimal point put where the exponent says, and zeros where the
    digits do not reach. -/
def Digits.positional (d : Digits) (wholeMark : List Char) : List Char :=
  let count : Int := d.digits.length
  if d.exponent < 0 then
    '0' :: '.' :: List.replicate (-d.exponent - 1).toNat '0' ++ d.digits
  else if count ≤ d.exponent + 1 then
    d.digits ++ List.replicate (d.exponent + 1 - count).toNat '0' ++ wholeMark
  else
    let whole := (d.exponent + 1).toNat
    d.digits.take whole ++ '.' :: d.digits.drop whole

/-- One digit, the others after a point if there are any, and the exponent with
    its sign. -/
def Digits.scientific (d : Digits) : List Char :=
  let mantissa := match d.digits with
    | first :: second :: rest => first :: '.' :: second :: rest
    | digits => digits
  let sign := if d.exponent < 0 then '-' else '+'
  mantissa ++ 'e' :: sign :: ofNat d.exponent.natAbs

/-- The text of a finite number. Zero is the digit zero with exponent zero. -/
def Layout.write (layout : Layout) (x : Float) : Option (List Char) :=
  match kindOf x with
  | .notANumber => none
  | .infinite _ => none
  | .finite negative magnitude =>
    let digits : Digits := match magnitude with
      | none => ⟨['0'], 0⟩
      | some v => v.shortest layout.tiesUp
    let text :=
      if layout.positional digits.exponent then digits.positional layout.wholeMark
      else digits.scientific
    some (if negative then '-' :: text else text)

/-- Cells are positional throughout and whole numbers carry no mark. Of two
    equally near decimals the greater is written. -/
def cell : Layout :=
  ⟨true, fun _ => true, []⟩

/-- The text of a number in a cell. What is not finite is written as a word. -/
def cellText (x : Float) : String :=
  match cell.write x with
  | some text => String.ofList text
  | none => if x.isNaN then "NaN" else if x < 0 then "-inf" else "inf"

end Decimal

end TestbedReport
