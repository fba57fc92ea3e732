import TestbedReport.Failure
import TestbedReport.Json.Writer
import TestbedReport.Base64
import TestbedReport.Url.Basic

/-!
# Requests

What the program asks the server for. A request for jobs can be narrowed by age
and by name; a job to be queued is described in full, with its firmware image
inside of the description.

An age is turned into two moments, now and so many days before. A day count of
zero is a filter like any other, one that lets nothing pass. The calendar has a
first moment, and a count that leads back beyond it cannot be answered.

## Main definitions

* `JobFilter`, `JobFilter.pairs`: Narrowing by age and name.
* `MetricQuery`, `MetricQuery.resource`: Which part of the job listing.
* `JobRequest`, `JobRequest.toJson`: A job to be queued.
* `Request`, `Answer`: What is sent, and what comes back.
-/

namespace TestbedReport

/-- Narrows a request to jobs of the last days, or to jobs of a name. -/
structure JobFilter where
  days : Option UInt32
  name : Option String
deriving DecidableEq, Inhabited

/-- The first moment of the calendar, in seconds from the start of 1970: the
    first of January of the year -262143. -/
def firstMoment : Int := -8334601228800

/-- The seconds of a day. -/
def secondsPerDay : Int := 86400

namespace JobFilter

/-- Lets every job pass. -/
def all : JobFilter :=
  ⟨none, none⟩

/-- Whether nothing is narrowed. -/
def isEmpty (f : JobFilter) : Bool :=
  f.days.isNone && f.name.isNone

/-- The moment so many days before another, unless the calendar does not reach
    back that far. -/
def daysBefore? (now : Int) (days : UInt32) : Option Int :=
  let start := now - secondsPerDay * days.toNat
  if start < firstMoment then none else some start

/-- A number as the text of a query value. -/
def momentText (moment : Int) : String :=
  String.ofList (Decimal.ofInt moment)

/-- The query pairs of a filter: the end and the start of the time span, then
    the name. -/
def pairs (f : JobFilter) (now : Int) : Outcome (List (String × String)) := do
  let span ← match f.days with
    | none => .ok []
    | some days =>
      match daysBefore? now days with
      | none => .error .outOfCalendar
      | some start => .ok [("stop", momentText now), ("start", momentText start)]
  let name := match f.name with
    | none => []
    | some name => [("name", name)]
  return span ++ name

end JobFilter

/-- Which part of the job listing is asked for: the jobs that pass a filter, or
    of these only the last ones. -/
structure MetricQuery where
  filter : JobFilter
  last : Option UInt32
deriving DecidableEq, Inhabited

/-- The resource of a part of the job listing. -/
def MetricQuery.resource (q : MetricQuery) : String :=
  match q.last with
  | some last => "metric/adv/" ++ String.ofList (Decimal.ofNat last.toNat)
  | none => if q.filter.isEmpty then "metric" else "metric/adv"

/-- A job to be queued. The overrides of the configuration are sent only if they
    are given, and zero is a value like any other. -/
structure JobRequest where
  protocol : Int64
  layout : String
  periodicity : Int64
  messageLength : Int64
  patching : Int64
  name : String
  description : String
  duration : Int64
  logs : Int64
  jamming : Int64
  priority : Bool
  firmware : List UInt8
  tempProfile : Option String
  overrideStart : Option Int64
  overrideDelta : Option Int64
deriving DecidableEq, Inhabited

namespace JobRequest

/-- An integer member that may be absent. -/
def optionalInt (key : String) (value : Option Int64) : List (String × Json) :=
  match value with
  | none => []
  | some value => [(key, .integer value.toInt)]

/-- The overrides of the configuration, if there are any. -/
def overrides (job : JobRequest) : List (String × Json) :=
  match optionalInt "start" job.overrideStart ++ optionalInt "delta" job.overrideDelta with
  | [] => []
  | given => [("config_overrides", .object given)]

/-- The description of a job as the server expects it. -/
def toJson (job : JobRequest) : Json :=
  let tempProfile := match job.tempProfile with
    | none => []
    | some profile => [("temp_profile", Json.text profile)]
  .object ([("protocol", Json.integer job.protocol.toInt), ("layout", .text job.layout),
    ("periodicity", .integer job.periodicity.toInt),
    ("message_length", .integer job.messageLength.toInt),
    ("patching", .integer job.patching.toInt), ("name", .text job.name),
    ("description", .text job.description), ("duration", .integer job.duration.toInt),
    ("logs", .integer job.logs.toInt), ("jamming", .integer job.jamming.toInt),
    ("priority", .bool job.priority),
    ("file", .text (String.ofList (Base64.encode job.firmware)))] ++ tempProfile ++ job.overrides)

end JobRequest

/-- The methods the program uses. -/
inductive Method where
  | get
  | post
  | delete
deriving DecidableEq

/-- A request, and for how many seconds to wait for the answer. Every one says
    that its content is JSON, even without a body. -/
structure Request where
  method : Method
  url : Url
  body : String
  timeoutSeconds : Option UInt64
deriving DecidableEq

/-- The media type every request names. -/
def contentType : String := "application/json"

/-- A reply: the status, and the body unless it broke off. It is the last reply to
    a request. Redirections are assumed to be followed below this interface, so a
    reply has no place it leads to, and a status of redirection that gets here is a
    status like any other. -/
structure Reply where
  status : Nat
  body : Except TransportFault (List UInt8)

/-- What comes back for a request. -/
abbrev Answer := Except TransportFault Reply

/-- The answer with its fault, if it has one, about a URL or about none. -/
def Answer.naming (answer : Answer) (url : Option Url) : Answer :=
  match answer with
  | .error fault => .error (fault.naming url)
  | .ok ⟨status, .error fault⟩ => .ok ⟨status, .error (fault.naming url)⟩
  | .ok ⟨status, .ok body⟩ => .ok ⟨status, .ok body⟩

end TestbedReport
