/-!
# Digits

Numerals to bases up to sixteen occur in escapes of texts, in percent forms, in
addresses and in settings. All of them take the letters in either case.

## Main definitions

* `hexValue?`: The value of a digit.
* `valueIn?`: The number of digits to a base.
-/

namespace TestbedReport

namespace Text

/-- The value of a hexadecimal digit in either case. -/
def hexValue? (c : Char) : Option Nat :=
  if c.isDigit then some (c.toNat - '0'.toNat)
  else if 'a' ≤ c ∧ c ≤ 'f' then some (c.toNat - 'a'.toNat + 10)
  else if 'A' ≤ c ∧ c ≤ 'F' then some (c.toNat - 'A'.toNat + 10)
  else none

/-- Whether a character is a digit to a base. -/
def isDigitIn (base : Nat) (c : Char) : Bool :=
  match hexValue? c with
  | some value => value < base
  | none => false

/-- The number of digits to a base. No digits are zero, and what is no digit
    makes it no number. -/
def valueIn? (base : Nat) (digits : List Char) : Option Nat :=
  digits.foldlM (fun value c =>
    match hexValue? c with
    | some d => if d < base then some (value * base + d) else none
    | none => none) 0

end Text

end TestbedReport
