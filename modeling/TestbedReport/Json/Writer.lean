import TestbedReport.Json.Basic
import TestbedReport.Decimal.Layout

/-!
# Writing JSON

Values are written without blanks, members in their order. A text escapes what
it must: the quote, the backslash and the control characters, the common ones by
their letter.

## Main definitions

* `escapeChar`: A character inside of a written text.
* `number`: The layout of floating-point numbers.
* `Json.write`: A value as characters.
* `Json.toText`: A value as a string.
-/

namespace TestbedReport

namespace Json

/-- A digit of a four-digit escape. -/
def escapeDigit (n : Nat) : Char :=
  Nat.digitChar n

/-- A character inside of a written text. -/
def escapeChar (c : Char) : List Char :=
  match c with
  | '"' => ['\\', '"']
  | '\\' => ['\\', '\\']
  | '\x08' => ['\\', 'b']
  | '\x0c' => ['\\', 'f']
  | '\n' => ['\\', 'n']
  | '\r' => ['\\', 'r']
  | '\t' => ['\\', 't']
  | c =>
    if c.toNat < 0x20 then
      ['\\', 'u', '0', '0', escapeDigit (c.toNat / 16), escapeDigit (c.toNat % 16)]
    else [c]

/-- A text in quotes. -/
def writeText (text : String) : List Char :=
  '"' :: text.toList.flatMap escapeChar ++ ['"']

/-- Numbers are positional while the first digit has an exponent from -5 to 15,
    and whole ones end in `.0`, so that they do not read back as integers. -/
def number : Decimal.Layout :=
  ⟨false, fun e => -5 ≤ e && e ≤ 15, ['.', '0']⟩

/-- A floating-point number; what is not finite has no form and is null. -/
def writeFloat (x : Float) : List Char :=
  (number.write x).getD "null".toList

/-- Puts a comma between texts. -/
def separate : List (List Char) → List Char
  | [] => []
  | [single] => single
  | first :: rest => first ++ ',' :: separate rest

mutual

/-- A value as characters, without blanks. -/
def write : Json → List Char
  | .null => "null".toList
  | .bool true => "true".toList
  | .bool false => "false".toList
  | .integer value => Decimal.ofInt value
  | .float value => writeFloat value
  | .text value => writeText value
  | .array items => '[' :: separate (writeItems items) ++ [']']
  | .object members => '\x7b' :: separate (writeMembers members) ++ ['\x7d']

/-- The items of an array, each by itself. -/
def writeItems : List Json → List (List Char)
  | [] => []
  | item :: rest => write item :: writeItems rest

/-- The members of an object, each by itself. -/
def writeMembers : List (String × Json) → List (List Char)
  | [] => []
  | (key, value) :: rest => (writeText key ++ ':' :: write value) :: writeMembers rest

end

/-- A value as a string. -/
def toText (value : Json) : String :=
  String.ofList value.write

end Json

end TestbedReport
