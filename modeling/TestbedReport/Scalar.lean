import TestbedReport.Text.Blank
import TestbedReport.Decimal.Layout
import TestbedReport.Decimal.Numeral
import TestbedReport.Json.Writer

/-!
# Cell Values

Whatever the server sends is reduced to one value per cell. A scalar has two
readings. As text it is what the report shows, where an empty value and `false`
show nothing. As a number it is what the conversions of a view compute with,
where text that is no numeral counts as zero.

Scalars come from JSON in two ways. `ofJson` accepts every value and keeps a
nested one as its JSON text, for the server's answers. `ofPlainJson?` accepts
only what a scalar is written as, for records that are read back.

## Main definitions

* `Scalar`: A cell value.
* `Scalar.render`: The text of a cell.
* `Scalar.toFloat`: The number a cell counts as.
* `Scalar.ofJson`: The cell value of any JSON value.
* `Scalar.ofPlainJson?`, `Scalar.toJson`: The written form of a cell value.
-/

namespace TestbedReport

/-- A cell value. Integers have 64 bits. -/
inductive Scalar where
  | empty
  | bool (value : Bool)
  | int (value : Int64)
  | float (value : Float)
  | text (value : String)
deriving Inhabited

namespace Scalar

/-- Whether the cell holds no value at all; an empty text is a value. -/
def isEmpty : Scalar → Bool
  | .empty => true
  | _ => false

/-- The text of a cell. Of the truth values only `true` shows. -/
def render : Scalar → String
  | .empty => ""
  | .bool false => ""
  | .bool true => "1"
  | .int value => String.ofList (Decimal.ofInt value.toInt)
  | .float value => Decimal.cellText value
  | .text value => value

/-- The number a cell counts as. Blanks around a numeral do not matter, and text
    that is no numeral counts as zero. -/
def toFloat : Scalar → Float
  | .empty => 0.0
  | .bool value => if value then 1.0 else 0.0
  | .int value => value.toFloat
  | .float value => value
  | .text value => (Decimal.toFloat? (Text.trimBlank value.toList)).getD 0.0

/-- An integer that fits into a cell. -/
def ofInt? (value : Int) : Option Scalar :=
  if -0x8000000000000000 ≤ value ∧ value ≤ 0x7fffffffffffffff then
    some (.int (Int64.ofInt value))
  else none

/-- An integer as a cell: a floating-point number if it does not fit. -/
def ofInteger (value : Int) : Scalar :=
  (ofInt? value).getD (.float (Float.ofInt value))

/-- The cell value of any JSON value. Arrays and objects become their text. -/
def ofJson : Json → Scalar
  | .null => .empty
  | .bool value => .bool value
  | .integer value => ofInteger value
  | .float value => .float value
  | .text value => .text value
  | nested => .text nested.toText

/-- The cell value that was written as this JSON value, if one was. -/
def ofPlainJson? : Json → Option Scalar
  | .null => some .empty
  | .bool value => some (.bool value)
  | .integer value => some (ofInteger value)
  | .float value => some (.float value)
  | .text value => some (.text value)
  | .array _ => none
  | .object _ => none

/-- The JSON value a cell value is written as. -/
def toJson : Scalar → Json
  | .empty => .null
  | .bool value => .bool value
  | .int value => .integer value.toInt
  | .float value => .float value
  | .text value => .text value

end Scalar

end TestbedReport
