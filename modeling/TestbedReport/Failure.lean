import TestbedReport.Url.Basic
import TestbedReport.Url.Fault

/-!
# Failures

Whatever goes wrong in a run is one of the causes below. A cause carries what is
needed to tell the user about it, and everything else about it is a function of
the cause: its wording, the area it belongs to, how severe that is, and what the
user can do.

A failure ends a run with an exit code that depends on its severity alone. One
end of a run is no failure and has no wording: `Stop.outOfCalendar`, when a day
count leads back before the first day the calendar has.

## Main definitions

* `TransportFault`, `FileFault`: What can go wrong in sending and in storing.
* `TransportFault.withoutUrl`: A transport fault that keeps the address to itself.
* `Failure`: The causes.
* `Failure.message`, `Failure.userMessage`, `Failure.suggestion`: Their wording.
* `Failure.category`, `Failure.severity`, `Severity.exitCode`: Their weight.
* `Stop`: How a run ends early.
-/

namespace TestbedReport

/-- What can go wrong between the program and the server. -/
inductive TransportCause where
  | notSent
  | bodyCut
  | timedOut
deriving DecidableEq

/-- The wording of a cause. -/
def TransportCause.message : TransportCause → String
  | .notSent => "error sending request"
  | .bodyCut => "error decoding response body"
  | .timedOut => "error sending request"

/-- A fault between the program and the server, and the URL it is about if it
    names one. -/
structure TransportFault where
  cause : TransportCause
  url : Option Url
deriving DecidableEq

namespace TransportFault

/-- The request did not reach the server. -/
def notSent : TransportFault :=
  ⟨.notSent, none⟩

/-- The body of the answer broke off. -/
def bodyCut : TransportFault :=
  ⟨.bodyCut, none⟩

/-- The time was over before the answer was there. -/
def timedOut : TransportFault :=
  ⟨.timedOut, none⟩

/-- The fault, about a URL or about none. -/
def naming (fault : TransportFault) (url : Option Url) : TransportFault :=
  { fault with url := url }

/-- The fault without the URL, which holds the key. -/
def withoutUrl (fault : TransportFault) : TransportFault :=
  fault.naming none

/-- The wording of a fault. It repeats the URL if the fault names one. -/
def message (fault : TransportFault) : String :=
  match fault.url with
  | some url => fault.cause.message ++ " for url (" ++ url.text ++ ")"
  | none => fault.cause.message

end TransportFault

/-- What can go wrong with a file. -/
inductive FileFault where
  | notFound
  | exists
  | notDirectory
  | isDirectory
  | nameTooLong
  | nulInName
  | notUtf8
  | other (message : String)
deriving DecidableEq

/-- The wording of a file fault, as the operating system has it. -/
def FileFault.message : FileFault → String
  | .notFound => "No such file or directory (os error 2)"
  | .exists => "File exists (os error 17)"
  | .notDirectory => "Not a directory (os error 20)"
  | .isDirectory => "Is a directory (os error 21)"
  | .nameTooLong => "File name too long (os error 36)"
  | .nulInName => "file name contained an unexpected NUL byte"
  | .notUtf8 => "stream did not contain valid UTF-8"
  | .other message => message

/-- The causes for which a run fails. -/
inductive Failure where
  | unreachable (fault : TransportFault)
  | rejected (status : Nat) (resource : String)
  | csv (message : String)
  | file (fault : FileFault)
  | malformedJson
  | url (fault : UrlFault)
  | invalidConfig (field message : String)
  | missingSetting (field : String)
  | invalidSetting (field value reason : String)
  | processing (message : String)
deriving DecidableEq

/-- The area a failure belongs to. -/
inductive Category where
  | network
  | data
  | fileSystem
  | configuration
deriving DecidableEq

/-- How severe a failure is. -/
inductive Severity where
  | medium
  | high
  | critical
deriving DecidableEq

/-- The exit code of a run that ended with a failure. -/
def Severity.exitCode : Severity → Nat
  | .medium => 2
  | .high => 1
  | .critical => 3

namespace Failure

/-- The full wording of a failure. What a parser says about a malformed document
    is left out. It is a function of the document alone and stands behind the
    wording given here. -/
def message : Failure → String
  | .unreachable fault => "API request failed: " ++ fault.message
  | .rejected status resource => "API returned HTTP " ++ toString status ++ " for " ++ resource
  | .csv message => "CSV processing error: " ++ message
  | .file fault => "IO error: " ++ fault.message
  | .malformedJson => "Serialization error: "
  | .url fault => "Invalid URL: " ++ fault.message
  | .invalidConfig field message => "Configuration error in " ++ field ++ ": " ++ message
  | .missingSetting field => "Missing required configuration: " ++ field
  | .invalidSetting field value reason =>
    "Invalid value '" ++ value ++ "' for " ++ field ++ ": " ++ reason
  | .processing message => "Data processing error: " ++ message

/-- The area a failure belongs to. -/
def category : Failure → Category
  | .unreachable _ | .rejected _ _ => .network
  | .csv _ | .malformedJson | .processing _ => .data
  | .file _ => .fileSystem
  | .url _ | .invalidConfig _ _ | .missingSetting _ | .invalidSetting _ _ _ => .configuration

/-- The severity goes by the area. -/
def severity (f : Failure) : Severity :=
  match f.category with
  | .network => .medium
  | .data | .configuration => .high
  | .fileSystem => .critical

/-- What the user can do about a failure. -/
def suggestion : Failure → String
  | .unreachable _ => "Check the base URL and that the DCUBE server is reachable"
  | .rejected status _ =>
    if status = 401 ∨ status = 403 then "Check that the API key is valid"
    else if status = 404 then "Check that the job id exists"
    else "The DCUBE server rejected the request, try again later"
  | .csv _ | .processing _ => "Inspect the API response, its shape may have changed"
  | .malformedJson => "The API did not return valid JSON"
  | .file _ => "Check permissions and free space in the output directory"
  | .url _ => "Pass a full URL such as https://dcube.example.org"
  | .invalidConfig _ _ | .invalidSetting _ _ _ =>
    "Fix the value in the config file or on the command line"
  | .missingSetting _ =>
    "Pass the value on the command line, via the environment or in the config file"

/-- The wording for the user, which is shorter than the full one where the
    details do not help. -/
def userMessage : Failure → String
  | .unreachable fault =>
    if fault.cause = .timedOut then "The DCUBE API timed out" else "Could not reach the DCUBE API"
  | .rejected status resource =>
    "DCUBE API answered " ++ toString status ++ " for '" ++ resource ++ "'"
  | .missingSetting field => "Missing setting: " ++ field
  | f => f.message

end Failure

/-- How a run ends early: with a failure, or because a date is asked for that
    the calendar does not have. -/
inductive Stop where
  | failed (cause : Failure)
  | outOfCalendar
deriving DecidableEq

/-- A result, or the end of the run. -/
abbrev Outcome (α : Type) := Except Stop α

end TestbedReport
