import TestbedReport.Proofs.Json.Reading
import TestbedReport.Proofs.Session.Stored
import TestbedReport.Proofs.Text.Utf8

/-!
# One Request and What Becomes of Its Answer

A server can do six things to a request, and each of them has its own meaning: it
cannot be reached, it says no, its answer breaks off, its answer has nothing on
it, a document, or something else. `Worth` lists them with what they are worth,
and the reading of answers agrees with the list (`exists_worth`).

A request is sent once its URL is known, and with the URL known nothing but the
answer decides how the run goes on (`run_exchange`). Several requests are made by
going on from one to the next, and `Asked` says what that comes to: the requests
up to the first one whose answer is worth nothing, and the failure of that one, or
all of the documents.

Where only the document matters and not what went wrong, there is a shorter way to
say all this. `Client.document?` is the document that a server has for a resource,
told by the place of the resource, the pairs behind it and the answer, and it is
what fetching comes to with any files (`toOption_run_fetch`).

## Main definitions

* `Succeeded`: A status of success.
* `Worth`: What an answer is worth.
* `Asked`: Documents asked for one after the other.
* `JobFilter.InCalendar`: The calendar has the days a filter asks for.
* `JobFilter.parameters`: The pairs a filter stands for.
* `Answer.document?`: The document of an answer.
* `Client.request?`: The request for a resource.
* `Client.document?`: The document that a server has for a resource.

## Theorems

* `JobFilter.pairs_eq`: The pairs of a filter, if the calendar has its days.
* `Worth.of_toText`: A value that is sent as its text arrives.
* `Client.exists_worth`: Every answer is worth something.
* `Client.run_exchange`: A request and its answer.
* `Client.run_fetch_bind`: A document and what is done with it.
* `JobFilter.pairs_eq_outOfCalendar`: There are none if it does not have them.
* `Client.resourceUrl_eq`: The URL of a resource.
* `Client.run_fetch_outOfCalendar`: Without pairs there is no request.
* `Client.toOption_run_fetch`: Fetching brings the document that the server has.
-/

namespace TestbedReport

/-- A status of success. -/
def Succeeded (status : Nat) : Prop :=
  200 ≤ status ∧ status < 300

/-- What an answer to a request for a resource is worth: a document or a failure.
    The status counts before the body, and blanks are the document null. A failure
    does not name the URL, even if the fault does. -/
inductive Worth (resource : String) : Answer → Except Failure Json → Prop where
  | unsent (fault : TransportFault) :
      Worth resource (.error fault) (.error (.unreachable ⟨fault.cause, none⟩))
  | rejected (reply : Reply) (hstatus : ¬Succeeded reply.status) :
      Worth resource (.ok reply) (.error (.rejected reply.status resource))
  | cut (status : Nat) (fault : TransportFault) (hstatus : Succeeded status) :
      Worth resource (.ok ⟨status, .error fault⟩) (.error (.unreachable ⟨fault.cause, none⟩))
  | blank (status : Nat) (body : List UInt8) (hstatus : Succeeded status)
      (hblank : Text.allBlank (Utf8.decodeLossy body) = true) :
      Worth resource (.ok ⟨status, .ok body⟩) (.ok .null)
  | document (status : Nat) (body : List UInt8) (value : Json) (hstatus : Succeeded status)
      (hblank : Text.allBlank (Utf8.decodeLossy body) = false)
      (hvalue : Json.parse? (Utf8.decodeLossy body) = some value) :
      Worth resource (.ok ⟨status, .ok body⟩) (.ok value)
  | malformed (status : Nat) (body : List UInt8) (hstatus : Succeeded status)
      (hblank : Text.allBlank (Utf8.decodeLossy body) = false)
      (hvalue : Json.parse? (Utf8.decodeLossy body) = none) :
      Worth resource (.ok ⟨status, .ok body⟩) (.error .malformedJson)

/-- The document of an answer: of a reply with a status of success, the value of its
    body, where blanks are null. -/
def Answer.document? : Answer → Option Json
  | .ok ⟨status, .ok body⟩ =>
    if 200 ≤ status ∧ status < 300 then
      if Text.allBlank (Utf8.decodeLossy body) then some .null
      else Json.parse? (Utf8.decodeLossy body)
    else none
  | _ => none

/-- Documents asked for one after the other, each under its URL: the requests that
    are sent, and the documents, or the failure of the first answer that brings
    none. -/
inductive Asked (client : Client) (answer : Request → Answer) :
    List (String × Url) → List Request → Except Failure (List Json) → Prop where
  | done : Asked client answer [] [] (.ok [])
  | failed (resource : String) (url : Url) (rest : List (String × Url)) (cause : Failure)
      (hworth : Worth resource (answer ⟨.get, url, "", client.timeoutSeconds⟩) (.error cause)) :
      Asked client answer ((resource, url) :: rest) [⟨.get, url, "", client.timeoutSeconds⟩]
        (.error cause)
  | next (resource : String) (url : Url) (rest : List (String × Url)) (document : Json)
      (requests : List Request) (outcome : Except Failure (List Json))
      (hworth : Worth resource (answer ⟨.get, url, "", client.timeoutSeconds⟩) (.ok document))
      (hrest : Asked client answer rest requests outcome) :
      Asked client answer ((resource, url) :: rest)
        (⟨.get, url, "", client.timeoutSeconds⟩ :: requests) (outcome.map (document :: ·))

/-- The calendar reaches back as many days as a filter asks for. -/
def JobFilter.InCalendar (filter : JobFilter) (now : Int) : Prop :=
  ∀ days ∈ filter.days, firstMoment ≤ now - secondsPerDay * days.toNat

instance (filter : JobFilter) (now : Int) : Decidable (filter.InCalendar now) :=
  @Option.decidableForallMem _ _ (fun _ => Int.decLe _ _) filter.days

/-- The pairs a filter stands for: the end and the start of its span if it has a day
    count, then the name if it has one. -/
def JobFilter.parameters (filter : JobFilter) (now : Int) : List (String × String) :=
  (filter.days.elim [] fun days =>
      [("stop", momentText now), ("start", momentText (now - 86400 * days.toNat))]) ++
    filter.name.elim [] fun name => [("name", name)]

theorem JobFilter.pairs_eq {filter : JobFilter} {now : Int} (h : filter.InCalendar now) :
    filter.pairs now = .ok (filter.parameters now) := by
  rcases filter with ⟨days, name⟩
  unfold pairs
  cases days with
  | none => cases name <;> rfl
  | some days =>
      have hreached : ¬now - secondsPerDay * days.toNat < firstMoment := by
        have hdays := h days rfl
        omega
      simp only [daysBefore?, if_neg hreached]
      cases name <;> rfl

theorem JobFilter.pairs_eq_outOfCalendar {filter : JobFilter} {now : Int}
    (h : ¬filter.InCalendar now) : filter.pairs now = .error .outOfCalendar := by
  rcases filter with ⟨days, name⟩
  cases days with
  | none => exact absurd (fun _ hdays => nomatch hdays) h
  | some days =>
      have hbeyond : now - secondsPerDay * days.toNat < firstMoment := by
        refine Int.not_le.mp fun hreached => h fun other hother => ?_
        rw [← Option.mem_some.mp hother]
        exact hreached
      simp only [pairs, daysBefore?, if_pos hbeyond]
      rfl

/-- What an answer is worth settles its document. -/
theorem Worth.document?_eq {resource : String} {answer : Answer} {outcome : Except Failure Json}
    (h : Worth resource answer outcome) : answer.document? = outcome.toOption := by
  cases h with
  | unsent fault => rfl
  | rejected reply hstatus =>
      rcases reply with ⟨status, body⟩
      cases body with
      | error fault => rfl
      | ok body => exact if_neg hstatus
  | cut status fault hstatus => rfl
  | blank status body hstatus hblank =>
      -- With a status of success only the body counts.
      have hrange : 200 ≤ status ∧ status < 300 := hstatus
      rw [Answer.document?, if_pos hrange, if_pos hblank]
      rfl
  | document status body value hstatus hblank hvalue =>
      have hrange : 200 ≤ status ∧ status < 300 := hstatus
      rw [Answer.document?, if_pos hrange, hblank, hvalue]
      rfl
  | malformed status body hstatus hblank hvalue =>
      have hrange : 200 ≤ status ∧ status < 300 := hstatus
      rw [Answer.document?, if_pos hrange, hblank, hvalue]
      rfl

/-- Whether a value is an array or an object. -/
def Json.isNested : Json → Bool
  | .array _ => true
  | .object _ => true
  | _ => false

/-- The text of an array or an object begins with its bracket, so it is not blank. -/
theorem Json.allBlank_toText {value : Json} (h : value.isNested = true) :
    Text.allBlank value.toText = false := by
  cases value with
  | array items =>
      rw [Text.allBlank, toText, String.toList_ofList, write, List.cons_append, List.all_cons]
      rfl
  | object members =>
      rw [Text.allBlank, toText, String.toList_ofList, write, List.cons_append, List.all_cons]
      rfl
  | _ => exact absurd h Bool.false_ne_true

/-- A reply that is the text of an exact array or object is worth that. -/
theorem Worth.of_toText {resource : String} {depth : Nat} {value : Json}
    (hexact : Json.Exact depth value) (hdepth : depth ≤ Json.maxDepth)
    (hnested : value.isNested = true) :
    Worth resource (.ok ⟨200, .ok (Utf8.encode value.toText)⟩) (.ok value) := by
  have hread : Utf8.decodeLossy (Utf8.encode value.toText) = value.toText := by
    rw [Utf8.encode, Utf8.decodeLossy_flatMap, String.ofList_toList]
  exact .document 200 _ value ⟨by decide, by decide⟩
    (by rw [hread]; exact Json.allBlank_toText hnested)
    (by rw [hread]; exact Json.parse?_toText hexact hdepth)

namespace Client

/-- The request for a resource: for its place, with the key and the filter behind.
    There is none if the resource has no place, or if the calendar does not have
    the days of the filter. -/
def request? (client : Client) (resource : String) (filter : JobFilter) (now : Int) :
    Option Request :=
  match client.placeOf resource with
  | .error _ => none
  | .ok place =>
    if filter.InCalendar now then
      some ⟨.get, place.addPairs ((Url.keyName, client.key) :: filter.parameters now), "",
        client.timeoutSeconds⟩
    else none

/-- The document that a server has for a resource, if it can be asked and has one. -/
def document? (client : Client) (answer : Request → Answer) (resource : String)
    (filter : JobFilter) (now : Int) : Option Json :=
  (client.request? resource filter now).bind fun request => (answer request).document?

theorem document?_of_place {client : Client} {resource : String} {place : Url}
    {filter : JobFilter} {now : Int} (hplace : client.placeOf resource = .ok place)
    (hfilter : filter.InCalendar now) (answer : Request → Answer) :
    client.document? answer resource filter now =
      (answer ⟨.get, place.addPairs ((Url.keyName, client.key) :: filter.parameters now), "",
        client.timeoutSeconds⟩).document? := by
  unfold document? request?
  simp only [hplace, if_pos hfilter, Option.bind_some]

theorem resourceUrl_eq {client : Client} {resource : String} {place : Url} {filter : JobFilter}
    {now : Int} (hplace : client.placeOf resource = .ok place) (hfilter : filter.InCalendar now) :
    client.resourceUrl resource filter now =
      .ok (place.addPairs ((Url.keyName, client.key) :: filter.parameters now)) := by
  unfold resourceUrl
  rw [hplace, JobFilter.pairs_eq hfilter]
  rfl

/-- Every answer is worth something, and that is what the client makes of it. -/
theorem exists_worth (resource : String) (answer : Answer) :
    ∃ outcome, Worth resource answer outcome ∧
      interpret resource answer = outcome.mapError Stop.failed := by
  unfold interpret
  rcases answer with fault | ⟨status, body⟩
  · exact ⟨_, .unsent fault, rfl⟩
  · by_cases hstatus : Succeeded status
    · have hrange : 200 ≤ status ∧ status < 300 := hstatus
      simp only [if_pos hrange]
      rcases body with fault | body
      · exact ⟨_, .cut status fault hstatus, rfl⟩
      · simp only [documentOf]
        by_cases hblank : Text.allBlank (Utf8.decodeLossy body) = true
        · rw [if_pos hblank]
          exact ⟨_, .blank status body hstatus hblank, rfl⟩
        · rw [if_neg hblank]
          rw [Bool.not_eq_true] at hblank
          cases hvalue : Json.parse? (Utf8.decodeLossy body) with
          | none => exact ⟨_, .malformed status body hstatus hblank hvalue, rfl⟩
          | some value => exact ⟨_, .document status body value hstatus hblank hvalue, rfl⟩
    · -- Outside of the range the body is not looked at.
      have hrange : ¬(200 ≤ status ∧ status < 300) := hstatus
      simp only [if_neg hrange]
      exact ⟨_, .rejected ⟨status, body⟩ hstatus, rfl⟩

variable {σ : Type}

/-- With its URL known, a request is sent, and the run ends with what the answer is
    worth. -/
theorem run_exchange {client : Client} {resource : String} {filter : JobFilter} {now : Int}
    {url : Url} (hurl : client.resourceUrl resource filter now = .ok url) (method : Method)
    (body : String) (world : Surroundings σ) (files : σ) :
    Session.run world (client.exchange method resource filter now body).run files =
      ⟨interpret resource (world.answer ⟨method, url, body, client.timeoutSeconds⟩),
        [⟨method, url, body, client.timeoutSeconds⟩], files⟩ := by
  rw [exchange, hurl]
  rfl

/-- Without a URL no request is sent. -/
theorem run_fetch_of_no_url {client : Client} {resource : String} {filter : JobFilter} {now : Int}
    {stop : Stop} (hurl : client.resourceUrl resource filter now = .error stop)
    (world : Surroundings σ) (files : σ) :
    Session.run world (client.fetch resource filter now).run files = ⟨.error stop, [], files⟩ := by
  rw [fetch, exchange, hurl]
  rfl

/-- Without the pairs of its filter a request is not sent. -/
theorem run_fetch_outOfCalendar {client : Client} {resource : String} {place : Url}
    (hplace : client.placeOf resource = .ok place) {filter : JobFilter} {now : Int}
    (hfilter : ¬filter.InCalendar now) (world : Surroundings σ) (files : σ) :
    Session.run world (client.fetch resource filter now).run files =
      ⟨.error .outOfCalendar, [], files⟩ := by
  refine run_fetch_of_no_url ?_ world files
  unfold resourceUrl
  rw [hplace, JobFilter.pairs_eq_outOfCalendar hfilter]
  rfl

/-- Fetching brings the document that the server has, whatever the files are. -/
theorem toOption_run_fetch (client : Client) (resource : String) (filter : JobFilter) (now : Int)
    (world : Surroundings σ) (files : σ) :
    (Session.run world (client.fetch resource filter now).run files).value.toOption =
      client.document? world.answer resource filter now := by
  cases hplace : client.placeOf resource with
  | error fault =>
      have hnone : client.document? world.answer resource filter now = none := by
        unfold document? request?
        simp only [hplace, Option.bind_none]
      have hurl : client.resourceUrl resource filter now = .error (.failed (.url fault)) := by
        rw [resourceUrl, hplace]
      rw [run_fetch_of_no_url hurl, hnone]
      rfl
  | ok place =>
      by_cases hfilter : filter.InCalendar now
      · rcases exists_worth resource (world.answer ⟨.get, place.addPairs ((Url.keyName, client.key)
          :: filter.parameters now), "", client.timeoutSeconds⟩) with
          ⟨outcome, hworth, hinterpret⟩
        rw [fetch, run_exchange (resourceUrl_eq hplace hfilter), hinterpret,
          document?_of_place hplace hfilter, hworth.document?_eq]
        cases outcome with
        | error cause => rfl
        | ok document => rfl
      · -- Without the pairs of the filter there is no URL either.
        have hnone : client.document? world.answer resource filter now = none := by
          unfold document? request?
          simp only [hplace, if_neg hfilter, Option.bind_none]
        rw [run_fetch_outOfCalendar hplace hfilter, hnone]
        rfl

/-- What becomes of a run that needs a document first. -/
theorem run_fetch_bind {β : Type} {client : Client} {resource : String} {filter : JobFilter}
    {now : Int} {url : Url} (hurl : client.resourceUrl resource filter now = .ok url)
    (f : Json → Attempt β) (world : Surroundings σ) (files : σ) :
    ∃ outcome, Worth resource (world.answer ⟨.get, url, "", client.timeoutSeconds⟩) outcome ∧
      Session.run world (client.fetch resource filter now >>= f).run files =
        match outcome with
        | .error cause =>
          ⟨.error (.failed cause), [⟨.get, url, "", client.timeoutSeconds⟩], files⟩
        | .ok document =>
          let rest := Session.run world (f document).run files
          { rest with requests := ⟨.get, url, "", client.timeoutSeconds⟩ :: rest.requests } := by
  rcases exists_worth resource (world.answer ⟨.get, url, "", client.timeoutSeconds⟩) with
    ⟨outcome, hworth, hinterpret⟩
  refine ⟨outcome, hworth, ?_⟩
  rw [fetch, Attempt.run_bind_eq, run_exchange hurl, hinterpret]
  cases outcome with
  | error cause => rfl
  | ok document => rfl

end Client

end TestbedReport
