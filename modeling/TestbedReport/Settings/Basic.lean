import TestbedReport.Settings.Check
import TestbedReport.Settings.File

/-!
# Settings

The settings of a run come from the command line and the settings file, where
the command line wins. What is given there stands in for the file even when it
is no good: a wrong value is an error, and never a reason to look further.

## Main definitions

* `Overrides`: What the command line says.
* `Settings`: The settings of a run.
* `Settings.resolve`: The settings from both sources, checked.
-/

namespace TestbedReport

/-- What the command line says about settings. -/
structure Overrides where
  baseUrl : Option String
  key : Option String
  outputPath : Option String
deriving DecidableEq

/-- The settings of a run. -/
structure Settings where
  baseUrl : String
  key : String
  outputPath : String
  timeoutSeconds : Option UInt64
deriving DecidableEq

namespace Settings

/-- The names by which settings are called in failures. -/
def baseUrlField : String := "api.base_url"

@[inherit_doc baseUrlField]
def keyField : String := "api.key"

@[inherit_doc baseUrlField]
def timeoutField : String := "api.timeout_seconds"

@[inherit_doc baseUrlField]
def outputField : String := "output.directory"

/-- Where files go unless a source says otherwise. -/
def defaultOutputPath : String := "."

/-- Checks settings in a fixed order, up to the first that is wrong. -/
def check (s : Settings) : Except Failure Unit := do
  Check.url baseUrlField s.baseUrl
  Check.notBlank keyField s.key
  Check.path outputField s.outputPath
  match s.timeoutSeconds with
  | some timeout => Check.atLeast timeoutField 1 timeout
  | none => return ()

/-- The settings from both sources. The two that have no default are missed before
    anything is checked. -/
def resolve (overrides : Overrides) (file : FileSettings) : Except Failure Settings := do
  let baseUrl ← Check.present baseUrlField (overrides.baseUrl <|> file.baseUrl)
  let key ← Check.present keyField (overrides.key <|> file.key)
  let outputPath := (overrides.outputPath <|> file.directory).getD defaultOutputPath
  let settings : Settings := ⟨baseUrl, key, outputPath, file.timeoutSeconds⟩
  settings.check
  return settings

end Settings

end TestbedReport
