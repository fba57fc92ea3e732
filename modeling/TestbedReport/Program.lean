import TestbedReport.Arguments.Reading
import TestbedReport.Report.Run
import TestbedReport.Text.Utf8

/-!
# The Program

A run of the program from its command line to its end. The command line is read,
then the settings are found, and only then the command is carried out. Whatever
the end is, it comes to an exit code, a text on standard output, which scripts
read, and a text on standard error, which people read.

A description is looked up for scripts, so its failures do not end the run but
print an empty line.

## Main definitions

* `Conclusion`: What a run comes to.
* `Program.loadSettings`: The settings of a run.
* `Program.perform`: What a command does.
* `Program.run`: A run with settings still to be found.
* `Program.start`: A run from its command line.
-/

namespace TestbedReport

/-- What a run comes to. -/
structure Conclusion where
  exitCode : Nat
  output : String
  notes : String
deriving DecidableEq

namespace Program

/-- A file that must be there. -/
def contentOf (path : String) : Attempt (List UInt8) := do
  match ← ExceptT.lift (Session.fetch path) with
  | .ok bytes => return bytes
  | .error fault => Attempt.fail (.file fault)

/-- What can fail without asking anybody. -/
def orFail {α : Type} : Except Failure α → Attempt α
  | .ok value => return value
  | .error cause => Attempt.fail cause

/-- The settings file, which must be a text in UTF-8. -/
def readSettingsFile (environment : Environment) (path : String) : Attempt FileSettings := do
  let bytes ← contentOf path
  match Utf8.decode? bytes with
  | some text => orFail (FileSettings.read environment text)
  | none => Attempt.fail (.file .notUtf8)

/-- The settings of a run. -/
def loadSettings (environment : Environment) (config : Option String) (overrides : Overrides) :
    Attempt Settings := do
  let file ← match config with
    | some path => readSettingsFile environment path
    | none => pure .empty
  orFail (Settings.resolve overrides file)

/-- A line of output. -/
def line (text : String) : String :=
  text ++ "\n"

/-- The client for settings. -/
def clientOf (settings : Settings) : Client :=
  Client.new settings.baseUrl settings.key settings.timeoutSeconds

/-- What a command does. The result is its output. Firmware is read before
    anything is sent. -/
def perform (settings : Settings) (now : Int) (command : Command) : Attempt String := do
  let client := clientOf settings
  match command with
  | .results options =>
    let _ ← (resultsSteps client settings.outputPath options now).run
    return ""
  | .jobs options =>
    let _ ← (jobsSteps client settings.outputPath options now).run
    return ""
  | .queue options =>
    let firmware ← contentOf options.firmwarePath
    let id ← client.createJob (options.withFirmware firmware) now
    return line id.render
  | .delete jobId =>
    let id ← client.deleteJob jobId now
    return line id.render
  | .description jobId =>
    let description ← client.descriptionOrEmpty jobId now
    return line description

/-- What a failure comes to. -/
def concludeFailure (cause : Failure) : Conclusion :=
  ⟨cause.severity.exitCode, "",
    line ("❌ " ++ cause.userMessage) ++ line ("💡 Suggestion: " ++ cause.suggestion)⟩

/-- What the end of the calendar comes to. -/
def concludeOutOfCalendar : Conclusion :=
  ⟨101, "", line "The calendar does not reach back that many days."⟩

/-- What an attempt comes to. -/
def conclude : Outcome String → Conclusion
  | .ok output => ⟨0, output, ""⟩
  | .error (.failed cause) => concludeFailure cause
  | .error .outOfCalendar => concludeOutOfCalendar

/-- A run with settings still to be found. -/
def run (environment : Environment) (now : Int) (arguments : Arguments) : Session Conclusion := do
  let attempt : Attempt String := do
    let settings ← loadSettings environment arguments.config arguments.overrides
    perform settings now arguments.command
  return conclude (← attempt.run)

/-- How the program is called. -/
def usage : String :=
  "Usage: dcube [OPTIONS] <COMMAND>\n\n" ++
  "Commands:\n" ++
  "  results <JOB_ID>      Fetch a job's results and write the report files\n" ++
  "  jobs                  List jobs into a file\n" ++
  "  description <JOB_ID>  Print a job's description without commas\n" ++
  "  queue                 Queue a new job\n" ++
  "  delete <JOB_ID>       Delete a queued job\n" ++
  "  help                  Print this text\n"

/-- What a command line that cannot be read comes to. Asking for help is fine. -/
def concludeUsage : UsageFault → Conclusion
  | .help => ⟨0, usage, ""⟩
  | _ => ⟨2, "", usage⟩

/-- A run from its command line. -/
def start (environment : Environment) (now : Int) (arguments : List String) : Session Conclusion :=
  match Arguments.read environment arguments with
  | .ok arguments => run environment now arguments
  | .error fault => return concludeUsage fault

end Program

end TestbedReport
