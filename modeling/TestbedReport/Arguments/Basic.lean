import TestbedReport.Report.Results
import TestbedReport.Report.Jobs
import TestbedReport.Settings.Basic

/-!
# What the Command Line Asks For

A command line asks for one of five things, with what each of them needs to
know, and says how settings are to be found.

## Main definitions

* `QueueOptions`: A job to be queued, with the place of its firmware.
* `Command`: The five things.
* `Arguments`: A command with everything around it.
* `Arguments.overrides`: What the command line says about settings.
-/

namespace TestbedReport

/-- A job to be queued. The firmware is still in a file. -/
structure QueueOptions where
  job : JobRequest
  firmwarePath : String
deriving DecidableEq

/-- The job with the firmware from its file. -/
def QueueOptions.withFirmware (options : QueueOptions) (firmware : List UInt8) : JobRequest :=
  { options.job with firmware := firmware }

/-- What a command line can ask for. -/
inductive Command where
  | results (options : ResultsOptions)
  | jobs (options : JobsOptions)
  | description (jobId : UInt64)
  | queue (options : QueueOptions)
  | delete (jobId : UInt64)
deriving DecidableEq

/-- How the log is written. -/
inductive LogFormat where
  | compact
  | json
deriving DecidableEq

/-- A command line. -/
structure Arguments where
  apiKey : Option String
  baseUrl : Option String
  config : Option String
  outputDir : Option String
  verbose : Bool
  logFormat : LogFormat
  command : Command
deriving DecidableEq

/-- What the command line says about settings. -/
def Arguments.overrides (a : Arguments) : Overrides :=
  ⟨a.baseUrl, a.apiKey, a.outputDir⟩

end TestbedReport
