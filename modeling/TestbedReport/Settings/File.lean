import TestbedReport.Failure
import TestbedReport.Settings.Placeholder
import TestbedReport.Toml.Document

/-!
# The Settings File

Settings that do not change from run to run can be kept in a TOML file. The
table `api` says where the server is, which key it wants and how long to wait
for it, and the table `output` says where files go. All of it is optional, and
what the file says beyond that is passed over. A setting that is there must be
of the right kind.

A table can also be given as an array of its values in their order, and a date
in its place is a table without any of them.

## Main definitions

* `FileSettings`: What a file can say.
* `FileSettings.ofToml?`: What a document says.
* `FileSettings.read`: What a text says, with its placeholders filled.
-/

namespace TestbedReport

/-- What a settings file can say. -/
structure FileSettings where
  baseUrl : Option String
  key : Option String
  timeoutSeconds : Option UInt64
  directory : Option String
deriving DecidableEq, Inhabited

namespace FileSettings

/-- A file that says nothing. -/
def empty : FileSettings :=
  ⟨none, none, none, none⟩

/-- The values of a table under keys in their order, each of which may be
    absent. In an array every value must be there. -/
def valuesOf? (keys : List String) : Option Toml → Option (List (Option Toml))
  | none => some (keys.map fun _ => none)
  | some (.moment _) => some (keys.map fun _ => none)
  | some (.table _ members) => some (keys.map fun key => members.lookup key)
  | some (.array items) =>
    if items.length < keys.length then none else some ((items.take keys.length).map some)
  | some _ => none

/-- A value that must be a text if it is there. -/
def textOf? : Option Toml → Option (Option String)
  | none => some none
  | some (.text value) => some (some value)
  | some _ => none

/-- A value that must be a number of 64 bits without sign if it is there. -/
def wordOf? : Option Toml → Option (Option UInt64)
  | none => some none
  | some (.integer value) =>
    if 0 ≤ value ∧ value ≤ 0xffffffffffffffff then some (some (UInt64.ofNat value.toNat)) else none
  | some _ => none

/-- What a document says, if all of it is of the right kind. -/
def ofToml? (root : Toml.Members) : Option FileSettings := do
  let api ← valuesOf? ["base_url", "key", "timeout_seconds"] (root.lookup "api")
  let output ← valuesOf? ["directory"] (root.lookup "output")
  match api, output with
  | [baseUrl, key, timeoutSeconds], [directory] =>
    return ⟨← textOf? baseUrl, ← textOf? key, ← wordOf? timeoutSeconds, ← textOf? directory⟩
  | _, _ => none

/-- The failure of a text that is no settings file. What exactly is wrong with it
    is not told. -/
def malformed : Failure :=
  .invalidConfig "toml_parsing" "TOML parsing error: "

/-- What a text says. Placeholders are filled before anything is read, so a value
    takes part in the text as if it had been written there. -/
def read (environment : Environment) (text : String) : Except Failure FileSettings :=
  match (Toml.parse? (Placeholder.fill environment text)).bind ofToml? with
  | some settings => .ok settings
  | none => .error malformed

end FileSettings

end TestbedReport
