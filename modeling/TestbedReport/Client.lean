import TestbedReport.Session
import TestbedReport.Scalar
import TestbedReport.Text.Blank
import TestbedReport.Url.Parse
import TestbedReport.Json.Value

/-!
# The Server's Interface

The server is asked for resources under one address, and every request carries
the key as a query value. An answer is worth something only with a status of
success. Its body is then a JSON document, where no body at all counts as null.

A failure names the resource, never the URL, because the URL holds the key.

## Main definitions

* `Client`: Where the server is and what it wants.
* `Client.resourceUrl`: The URL of a resource.
* `Client.fetch`: The document of a resource.
* `Client.createJob`, `Client.deleteJob`, `Client.description`: What the
  commands ask for.
-/

namespace TestbedReport

/-- Where the server is, the key it wants and for how long to wait for it. The
    address has no slash at its end. -/
structure Client where
  address : String
  key : String
  timeoutSeconds : Option UInt64
deriving DecidableEq

namespace Client

/-- The client for a base URL and a key. -/
def new (baseUrl key : String) (timeoutSeconds : Option UInt64) : Client :=
  ⟨String.ofList (baseUrl.toList.reverse.dropWhile (· = '/')).reverse, key, timeoutSeconds⟩

/-- The URL of a resource before any query value. -/
def placeOf (client : Client) (resource : String) : Except UrlFault Url :=
  Url.parse (client.address ++ "/api/" ++ resource)

/-- The URL of a resource with the key and the pairs of a filter. -/
def resourceUrl (client : Client) (resource : String) (filter : JobFilter) (now : Int) :
    Outcome Url :=
  match client.placeOf resource with
  | .error fault => .error (.failed (.url fault))
  | .ok place => do
    let pairs ← filter.pairs now
    return place.addPairs ((Url.keyName, client.key) :: pairs)

/-- The document of a body. A body of blanks is null. -/
def documentOf (body : List UInt8) : Outcome Json :=
  let text := Utf8.decodeLossy body
  if Text.allBlank text then .ok .null
  else match Json.parse? text with
    | some document => .ok document
    | none => .error (.failed .malformedJson)

/-- What an answer is worth. The status comes first: a body that broke off does
    not matter if the request was rejected anyway. A redirection is no success, as
    those that lead somewhere are assumed to be followed before there is an answer.
    A fault may name the URL of the request, so the URL is taken out before anybody
    sees it. -/
def interpret (resource : String) : Answer → Outcome Json
  | .error fault => .error (.failed (.unreachable fault.withoutUrl))
  | .ok reply =>
    if 200 ≤ reply.status ∧ reply.status < 300 then
      match reply.body with
      | .error fault => .error (.failed (.unreachable fault.withoutUrl))
      | .ok body => documentOf body
    else .error (.failed (.rejected reply.status resource))

/-- Sends a request for a resource and takes the document of its answer. -/
def exchange (client : Client) (method : Method) (resource : String) (filter : JobFilter)
    (now : Int) (body : String) : Attempt Json := do
  -- Without a URL nothing is sent.
  let url ← Attempt.ofOutcome (client.resourceUrl resource filter now)
  let answer ← ExceptT.lift (Session.ask ⟨method, url, body, client.timeoutSeconds⟩)
  Attempt.ofOutcome (interpret resource answer)

/-- The document of a resource. -/
def fetch (client : Client) (resource : String) (filter : JobFilter) (now : Int) : Attempt Json :=
  client.exchange .get resource filter now ""

/-- A job id as the end of a resource. -/
def idText (jobId : UInt64) : String :=
  String.ofList (Decimal.ofNat jobId.toNat)

/-- The resource of a job's outcome. -/
def scenarioResource (jobId : UInt64) : String :=
  "scenario/" ++ idText jobId

/-- The resource of a job's queue entry. -/
def queueResource (jobId : UInt64) : String :=
  "queue/" ++ idText jobId

/-- The resource that takes new jobs. -/
def createResource : String := "queue/create_job"

/-- The outcome of a job. -/
def fetchScenario (client : Client) (jobId : UInt64) (filter : JobFilter) (now : Int) :
    Attempt Json :=
  client.fetch (scenarioResource jobId) filter now

/-- The queue entry of a job. -/
def fetchQueue (client : Client) (jobId : UInt64) (filter : JobFilter) (now : Int) : Attempt Json :=
  client.fetch (queueResource jobId) filter now

/-- The job listing, or a part of it. -/
def fetchMetrics (client : Client) (query : MetricQuery) (now : Int) : Attempt Json :=
  client.fetch query.resource query.filter now

/-- The id in a document, empty if there is none. -/
def idOf (document : Json) : Scalar :=
  match document.member? "id" with
  | some id => Scalar.ofJson id
  | none => .empty

/-- The description in a queue entry without commas, so that a script can put it
    into a line of a file. Anything but a text is no description. -/
def descriptionOf (entry : Json) : String :=
  match entry.member? "description" with
  | some (.text description) => String.ofList (description.toList.filter (· ≠ ','))
  | _ => ""

/-- The description of a job. -/
def description (client : Client) (jobId : UInt64) (now : Int) : Attempt String := do
  let entry ← client.fetchQueue jobId .all now
  return descriptionOf entry

/-- The description of a job, empty if anything fails. -/
def descriptionOrEmpty (client : Client) (jobId : UInt64) (now : Int) : Attempt String :=
  tryCatch (client.description jobId now) fun stop =>
    match stop with
    | .failed _ => return ""
    | .outOfCalendar => throw stop

/-- Queues a job. The result is the id the server gave it. -/
def createJob (client : Client) (job : JobRequest) (now : Int) : Attempt Scalar := do
  let document ← client.exchange .post createResource .all now job.toJson.toText
  return idOf document

/-- Deletes a queued job. The result is the id the server confirmed. -/
def deleteJob (client : Client) (jobId : UInt64) (now : Int) : Attempt Scalar := do
  let document ← client.exchange .delete (queueResource jobId) .all now ""
  return idOf document

end Client

end TestbedReport
