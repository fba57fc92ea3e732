import TestbedReport.Decimal.Whole

/-!
# Options

An option is a word behind two dashes. Some options only have to be there, and
the others have a value that must be of a certain form. What stands alone
without dashes is a value as well, and the rules for it are those of an option
with a name nobody types.

## Main definitions

* `UsageFault`: What can be wrong with a command line.
* `ValueForm`, `OptionValue`: The forms of values, and values.
* `ValueForm.read`: The value of a text.
* `OptionRule`: An option.
-/

namespace TestbedReport

/-- What can be wrong with a command line. A request for help is not wrong, but
    it ends the reading as well. -/
inductive UsageFault where
  | help
  | nothingGiven
  | unknownArgument
  | unknownCommand
  | commandMissing
  | argumentMissing
  | malformedNumber
  | badValue
  | valueForFlag
  | conflict
deriving DecidableEq

/-- What the value of an option has to be: nothing at all, any text, a path, a
    whole number within bounds, a job id, or one of a few words. -/
inductive ValueForm where
  | flag
  | text
  | path
  | within (least greatest : Int)
  | jobId
  | oneOf (words : List String)
deriving DecidableEq

/-- The value of an option. -/
inductive OptionValue where
  | on
  | text (value : String)
  | number (value : Int)
deriving DecidableEq

/-- An option with what its value has to be. -/
structure OptionRule where
  name : String
  form : ValueForm
deriving DecidableEq

/-- A number within bounds. -/
def readWithin (least greatest : Int) (number : Option Int) : Except UsageFault OptionValue :=
  match number with
  | some n => if least ≤ n ∧ n ≤ greatest then .ok (.number n) else .error .malformedNumber
  | none => .error .malformedNumber

/-- The number of a numeral that may have a plus but no minus. -/
def unsigned? (cs : List Char) : Option Int :=
  match cs with
  | '+' :: digits => (Decimal.toNat? digits).map Int.ofNat
  | digits => (Decimal.toNat? digits).map Int.ofNat

/-- The value of a text. A job id has no minus, not even in front of zero. -/
def ValueForm.read (form : ValueForm) (value : String) : Except UsageFault OptionValue :=
  match form with
  | .flag => .ok .on
  | .text => .ok (.text value)
  | .path => if value.isEmpty then .error .badValue else .ok (.text value)
  | .within least greatest => readWithin least greatest (Decimal.toInt? value.toList)
  | .jobId => readWithin 0 0xffffffffffffffff (unsigned? value.toList)
  | .oneOf words => if words.contains value then .ok (.text value) else .error .badValue

end TestbedReport
