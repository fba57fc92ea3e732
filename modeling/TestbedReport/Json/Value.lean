import TestbedReport.Json.Document
import TestbedReport.Keyed
import TestbedReport.Decimal.Numeral

/-!
# The Value of a JSON Document

The second step of reading: a document as written becomes a value. Halves of
surrogate pairs are joined, repeated keys settled and numbers valued, and what
has no value makes the whole document invalid.

Numbers are valued fast rather than exactly. The digits are gathered in 64 bits
and those that no longer fit are dropped; then one multiplication or division by
a power of ten follows. The result can differ from the nearest floating-point
number in the last place, and the report shows it, so the steps are fixed here
one by one.

## Main definitions

* `joinPieces?`: The text of its pieces.
* `NumberText.value?`: The value of a number.
* `Document.depth`: How deep arrays and objects are nested.
* `Document.value?`: The value of a document.
* `Json.parse?`: The value of a text.
-/

namespace TestbedReport

namespace Json

/-- The text of its pieces. Two halves of a surrogate pair in a row are one
    character; a half alone is none. -/
def joinPieces? : List TextPiece → Option (List Char)
  | [] => some []
  | .char c :: rest => (joinPieces? rest).map (c :: ·)
  | .half high :: .half low :: rest =>
    if high < 0xDC00 ∧ 0xDC00 ≤ low then
      let c := Char.ofNat (0x10000 + (high - 0xD800) * 0x400 + (low - 0xDC00))
      (joinPieces? rest).map (c :: ·)
    else none
  | .half _ :: _ => none

/-- The text of its pieces as a string. -/
def stringOf? (pieces : List TextPiece) : Option String :=
  (joinPieces? pieces).map String.ofList

/-- The greatest number of 64 bits. -/
def maxWord : Nat := 0xffffffffffffffff

/-- Gathers digits into a significand while it fits into 64 bits. From the first
    digit that does not fit, digits are only counted. The result is the
    significand with the number of digits gathered and of digits dropped. -/
def gather (significand : Nat) : List Char → Nat × Nat × Nat
  | [] => (significand, 0, 0)
  | c :: rest =>
    let next := significand * 10 + (c.toNat - '0'.toNat)
    if next ≤ maxWord then
      let (significand, gathered, dropped) := gather next rest
      (significand, gathered + 1, dropped)
    else (significand, 0, rest.length + 1)

/-- A power of ten as the nearest floating-point number. -/
def powerOfTen (e : Nat) : Float :=
  Float.ofScientific 1 false e

/-- Brings a number to its decimal exponent. An exponent beyond the powers that
    exist is worked off in steps of 308 while that can only make the number
    smaller; a number that grows out of range has no value. The count of steps
    bounds the work. -/
def scale (steps : Nat) (x : Float) (exponent : Int) : Option Float :=
  if exponent.natAbs ≤ 308 then
    if exponent < 0 then some (x / powerOfTen exponent.natAbs)
    else
      let scaled := x * powerOfTen exponent.natAbs
      if scaled.isInf then none else some scaled
  else if x == 0.0 then some x
  else if 0 < exponent then none
  else match steps with
    | 0 => some x
    | steps + 1 => scale steps (x / powerOfTen 308) (exponent + 308)

/-- The greatest exponent that may be written out. -/
def maxExponent : Int := 0x7fffffff

/-- A sum held within the range of 32 bits. -/
def clampExponent (e : Int) : Int :=
  max (-0x80000000) (min e maxExponent)

/-- The value of a number as a floating-point number. -/
def NumberText.toFloat? (n : NumberText) : Option Float :=
  let (whole, _, dropped) := gather 0 n.whole
  let (significand, gathered, _) := gather whole n.fraction
  let ofParts (exponent : Int) : Option Float :=
    scale (exponent.natAbs / 308) (Float.ofNat significand) exponent
  let base : Int := (dropped : Int) - gathered
  let magnitude := match n.exponent with
    | none => ofParts base
    | some (negative, digits) =>
      let explicit : Int := Nat.ofDigitChars 10 digits 0
      if maxExponent < explicit then
        -- No number but zero has a value with such an exponent, unless it vanishes.
        if significand ≠ 0 ∧ !negative then none else some 0.0
      else ofParts (clampExponent (if negative then base - explicit else base + explicit))
  magnitude.map fun x => if n.negative then -x else x

/-- The value of a number. Without fraction and exponent it is an integer if it
    fits into 64 bits, signed when it is negative; a negative zero is no
    integer. -/
def NumberText.value? (n : NumberText) : Option Json :=
  let whole := Nat.ofDigitChars 10 n.whole 0
  let isInteger := n.fraction.isEmpty && n.exponent.isNone
  if isInteger && !n.negative && whole ≤ maxWord then some (.integer whole)
  else if isInteger && n.negative && whole ≠ 0 && whole ≤ 0x8000000000000000 then
    some (.integer (-whole))
  else n.toFloat?.map .float

mutual

/-- How deep arrays and objects are nested in a document. -/
def Document.depth : Document → Nat
  | .array items => Document.depthOfItems items + 1
  | .object members => Document.depthOfMembers members + 1
  | _ => 0

/-- The greatest depth among items. -/
def Document.depthOfItems : List Document → Nat
  | [] => 0
  | item :: rest => max item.depth (Document.depthOfItems rest)

/-- The greatest depth among the values of members. -/
def Document.depthOfMembers : List (List TextPiece × Document) → Nat
  | [] => 0
  | (_, value) :: rest => max value.depth (Document.depthOfMembers rest)

end

mutual

/-- The value of a document, at any depth. -/
def Document.valueAnyDepth? : Document → Option Json
  | .null => some .null
  | .bool value => some (.bool value)
  | .number parts => parts.value?
  | .text pieces => (stringOf? pieces).map .text
  | .array items => (Document.valuesOfItems? items).map .array
  | .object members => (Document.valuesOfMembers? members).map fun ms => .object (Keyed.settle ms)

/-- The values of items. -/
def Document.valuesOfItems? : List Document → Option (List Json)
  | [] => some []
  | item :: rest =>
    match item.valueAnyDepth?, Document.valuesOfItems? rest with
    | some value, some values => some (value :: values)
    | _, _ => none

/-- The keys and values of members. -/
def Document.valuesOfMembers? :
    List (List TextPiece × Document) → Option (List (String × Json))
  | [] => some []
  | (key, value) :: rest =>
    match stringOf? key, value.valueAnyDepth?, Document.valuesOfMembers? rest with
    | some key, some value, some members => some ((key, value) :: members)
    | _, _, _ => none

end

/-- Arrays and objects may be nested this deep. -/
def maxDepth : Nat := 127

/-- The value of a document that is not nested too deep. -/
def Document.value? (d : Document) : Option Json :=
  if d.depth ≤ maxDepth then d.valueAnyDepth? else none

/-- The value of a text, if it is a valid document. -/
def parse? (text : String) : Option Json :=
  (Document.read? text.toList).bind Document.value?

end Json

end TestbedReport
