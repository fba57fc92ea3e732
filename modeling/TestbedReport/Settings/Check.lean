import TestbedReport.Failure
import TestbedReport.Text.Blank
import TestbedReport.Url.Parse

/-!
# Checks of Settings

A setting is checked before anything is done with it, and what is wrong with it
is told with its name and its value.

## Main definitions

* `Check.url`, `Check.path`, `Check.atLeast`, `Check.notBlank`: The checks of a
  value.
* `Check.present`: The check that there is a value.
-/

namespace TestbedReport

namespace Check

/-- The schemes by which the server can be reached. -/
def schemes : List String :=
  ["http", "https"]

/-- What is wrong with a base URL, if anything. -/
def urlReason (value : String) : Option String :=
  if value.isEmpty then some "URL cannot be empty"
  else match Url.parse value with
    | .error fault => some ("Invalid URL format: " ++ fault.message)
    | .ok url =>
      if schemes.contains url.scheme then none
      else some ("Unsupported URL scheme: " ++ url.scheme)

/-- What is wrong with a path, if anything. -/
def pathReason (value : String) : Option String :=
  if value.isEmpty then some "Path cannot be empty"
  else if value.toList.contains '\x00' then some "Path contains null bytes"
  else none

/-- What is wrong with a text that has to say something, if anything. -/
def blankReason (value : String) : Option String :=
  if Text.allBlank value then some "Value cannot be empty or whitespace-only" else none

/-- What is wrong with a number that has a least value, if anything. -/
def leastReason (least value : UInt64) : Option String :=
  if value < least then some ("Value must be at least " ++ toString least.toNat) else none

/-- Fails for a reason, if there is one. -/
def refuse (field value : String) : Option String → Except Failure Unit
  | some reason => .error (.invalidSetting field value reason)
  | none => .ok ()

/-- Checks a base URL. -/
def url (field value : String) : Except Failure Unit :=
  refuse field value (urlReason value)

/-- Checks a path. -/
def path (field value : String) : Except Failure Unit :=
  refuse field value (pathReason value)

/-- Checks a text that has to say something. -/
def notBlank (field value : String) : Except Failure Unit :=
  refuse field value (blankReason value)

/-- Checks a number that has a least value. -/
def atLeast (field : String) (least value : UInt64) : Except Failure Unit :=
  refuse field (toString value.toNat) (leastReason least value)

/-- The value of a setting that has to be there. -/
def present {α : Type} (field : String) : Option α → Except Failure α
  | some value => .ok value
  | none => .error (.missingSetting field)

end Check

end TestbedReport
