import Mathlib.Data.List.Forall2
import TestbedReport.Proofs.Session.Stored
import TestbedReport.Proofs.Url.Query
import TestbedReport.Report.Run

/-!
# The Key Shows Nowhere Else

Two users with different keys who do the same see the same: the results, the
failures with their wording, and the files. What they send differs in the value
of one query pair. The only thing asked of the server is that it looks at the
method and the path of a request and not at its query.

A request that fails is another matter, because the fault may name the URL that
was asked for, and with it the key. So the answers to two users are the same only
but for the URLs that are named in them, and the wording is the same because these
are taken out.

`Session.Alike` says this of two sessions before there is a server. It follows
both at once, question by question, and demands that both ask the same, up to the
key, and that they stay alike whatever the answer is, if it is the same but for
the URLs. Two attempts in a row are alike if each of them is, so it is enough to
look at the client, which is the one place where the key is used, and at the
outputs, where it is not.

## Main definitions

* `Request.Alike`: Requests that differ in the key alone.
* `Session.Alike`: Sessions that differ in the key alone.
* `KeyBlind`: What clients with different keys come to is the same.

## Theorems

* `Session.Alike.run_eq`: Alike sessions come to the same.
* `Client.interpret_naming`: The URL that a fault names is not looked at.
* `Client.alike_exchange`: Clients with different keys send alike requests.
* `Client.keyBlind`: The reports and all that a client is asked for are blind to
  the key.
-/

namespace TestbedReport

/-- Two requests that differ in the value of one pair alone: the one has the first
    key there, the other the second. -/
structure Request.Alike (firstKey secondKey : String) (first second : Request) : Prop where
  method : first.method = second.method
  scheme : first.url.scheme = second.url.scheme
  authority : first.url.authority = second.url.authority
  path : first.url.path = second.url.path
  fragment : first.url.fragment = second.url.fragment
  pairs : ∃ before after, first.url.pairs = before ++ (Url.keyName, firstKey) :: after ∧
    second.url.pairs = before ++ (Url.keyName, secondKey) :: after
  body : first.body = second.body
  timeoutSeconds : first.timeoutSeconds = second.timeoutSeconds

namespace Session

/-- Two sessions that ask the world the same, up to the key, and go on alike
    whatever it answers, also if the answers name different URLs. -/
inductive Alike {α : Type} (firstKey secondKey : String) : Session α → Session α → Prop where
  | done (value : α) : Alike firstKey secondKey (.done value) (.done value)
  | send {first second : Request} {firstNext secondNext : Answer → Session α}
      (hrequest : first.Alike firstKey secondKey second)
      (hnext : ∀ (answer : Answer) (firstUrl secondUrl : Option Url), Alike firstKey secondKey
        (firstNext (answer.naming firstUrl)) (secondNext (answer.naming secondUrl))) :
      Alike firstKey secondKey (.send first firstNext) (.send second secondNext)
  | store (directory : String) (output : Output)
      {firstNext secondNext : Except FileFault Unit → Session α}
      (hnext : ∀ result, Alike firstKey secondKey (firstNext result) (secondNext result)) :
      Alike firstKey secondKey (.store directory output firstNext)
        (.store directory output secondNext)
  | read (path : String) {firstNext secondNext : Except FileFault (List UInt8) → Session α}
      (hnext : ∀ content, Alike firstKey secondKey (firstNext content) (secondNext content)) :
      Alike firstKey secondKey (.read path firstNext) (.read path secondNext)

namespace Alike

variable {α β σ : Type} {firstKey secondKey : String}

/-- Alike sessions stay alike when alike sessions follow. -/
theorem bind {first second : Session α} {f g : α → Session β}
    (h : Alike firstKey secondKey first second)
    (hnext : ∀ value, Alike firstKey secondKey (f value) (g value)) :
    Alike firstKey secondKey (first.bind f) (second.bind g) := by
  -- Each question is the same in both, and what follows its answer is alike again.
  induction h with
  | done value => exact hnext value
  | send hrequest _ ih => exact .send hrequest ih
  | store directory output _ ih => exact .store directory output ih
  | read path _ ih => exact .read path ih

/-- Alike sessions come to the same, if the server looks at nothing but method and
    path, and send alike requests. -/
theorem run_eq {first second : Session α} (h : Alike firstKey secondKey first second)
    (world : Surroundings σ) (server : Method → String → Answer) (named : Request → Option Url)
    (hserver : world.answer = fun request =>
      (server request.method request.url.pathText).naming (named request))
    (files : σ) :
    (first.run world files).value = (second.run world files).value ∧
      (first.run world files).files = (second.run world files).files ∧
      List.Forall₂ (Request.Alike firstKey secondKey) (first.run world files).requests
        (second.run world files).requests := by
  induction h generalizing files with
  | done value => exact ⟨rfl, rfl, .nil⟩
  | @send firstRequest secondRequest _ _ hrequest _ ih =>
      -- The answer is to the method and the path, in which the requests agree. The
      -- URLs it names are those of the requests, in which they do not.
      have hpath : firstRequest.url.pathText = secondRequest.url.pathText := by
        rw [Url.pathText, Url.pathText, hrequest.path]
      have hanswer : ∀ request : Request, world.answer request =
          (server request.method request.url.pathText).naming (named request) := fun request => by
        rw [hserver]
      rcases ih (server secondRequest.method secondRequest.url.pathText) (named firstRequest)
        (named secondRequest) files with ⟨hvalue, hfiles, hrequests⟩
      rw [Session.run, Session.run, hanswer, hanswer, hrequest.method, hpath]
      exact ⟨hvalue, hfiles, .cons hrequest hrequests⟩
  | store directory output _ ih =>
      rw [Session.run, Session.run]
      exact ih (world.store directory output files).1 (world.store directory output files).2
  | read path _ ih =>
      rw [Session.run, Session.run]
      exact ih (world.read path files) files

end Alike

end Session

section Attempts

variable {α β : Type} {firstKey secondKey : String}

/-- Alike attempts stay alike when alike attempts follow, since they fail alike. -/
theorem Attempt.alike_bind {first second : Attempt α} {f g : α → Attempt β}
    (h : Session.Alike firstKey secondKey first.run second.run)
    (hnext : ∀ value, Session.Alike firstKey secondKey (f value).run (g value).run) :
    Session.Alike firstKey secondKey (first >>= f).run (second >>= g).run := by
  rw [Attempt.run_bind, Attempt.run_bind]
  refine Session.Alike.bind h fun outcome => ?_
  cases outcome with
  | error stop => exact .done _
  | ok value => exact hnext value

/-- They stay alike when the same handler looks at their failures, if it asks for
    nothing. -/
theorem Attempt.alike_tryCatch {first second : Attempt α} {handler : Stop → Attempt α}
    (h : Session.Alike firstKey secondKey first.run second.run)
    (hhandler : ∀ stop, Session.Alike firstKey secondKey (handler stop).run (handler stop).run) :
    Session.Alike firstKey secondKey (tryCatch first handler).run
      (tryCatch second handler).run := by
  refine Session.Alike.bind h fun outcome => ?_
  cases outcome with
  | error stop => exact hhandler stop
  | ok value => exact .done _

/-- The key does not reach the outputs. -/
theorem alike_storeAll (directory : String) (outputs : List Output) :
    Session.Alike firstKey secondKey (storeAll directory outputs).run
      (storeAll directory outputs).run := by
  induction outputs with
  | nil => exact .done _
  | cons output rest ih =>
      rw [storeAll]
      refine Attempt.alike_bind (.store directory output fun result => .done _) fun result => ?_
      cases result with
      | error fault => exact .done _
      | ok done => exact Attempt.alike_bind ih fun paths => .done _

end Attempts

namespace Client

variable (baseUrl firstKey secondKey : String) (timeoutSeconds : Option UInt64)

/-- The URL that a fault names is not looked at. -/
theorem interpret_naming (resource : String) (answer : Answer) (url : Option Url) :
    interpret resource (answer.naming url) = interpret resource answer := by
  rcases answer with fault | ⟨status, body⟩
  · rfl
  · cases body with
    | error fault => rfl
    | ok body => rfl

/-- Clients with different keys send alike requests and judge the answer alike. -/
theorem alike_exchange (method : Method) (resource : String) (filter : JobFilter) (now : Int)
    (body : String) :
    Session.Alike firstKey secondKey
      ((Client.new baseUrl firstKey timeoutSeconds).exchange method resource filter now body).run
      ((Client.new baseUrl secondKey timeoutSeconds).exchange method resource filter now
        body).run := by
  -- Whether there is a URL is settled before the key comes in.
  have hplace : (Client.new baseUrl firstKey timeoutSeconds).placeOf resource =
      (Client.new baseUrl secondKey timeoutSeconds).placeOf resource := rfl
  rw [exchange, exchange, resourceUrl, resourceUrl, hplace]
  cases (Client.new baseUrl secondKey timeoutSeconds).placeOf resource with
  | error fault => exact .done _
  | ok place =>
      cases filter.pairs now with
      | error stop => exact .done _
      | ok pairs =>
          refine Session.Alike.send ?_ fun answer firstUrl secondUrl => ?_
          · exact {
              method := rfl, scheme := rfl, authority := rfl, path := rfl, fragment := rfl
              pairs := ⟨place.pairs, pairs, Url.pairs_addPairs _ _, Url.pairs_addPairs _ _⟩
              body := rfl, timeoutSeconds := rfl }
          · -- What is made of the answer is the same, because no URL is left in it.
            show Session.Alike firstKey secondKey
              (.done (interpret resource (answer.naming firstUrl)))
              (.done (interpret resource (answer.naming secondUrl)))
            rw [interpret_naming, interpret_naming]
            exact .done _

theorem alike_description (jobId : UInt64) (now : Int) :
    Session.Alike firstKey secondKey
      ((Client.new baseUrl firstKey timeoutSeconds).description jobId now).run
      ((Client.new baseUrl secondKey timeoutSeconds).description jobId now).run :=
  Attempt.alike_bind (alike_exchange baseUrl firstKey secondKey timeoutSeconds _ _ _ _ _)
    fun _ => .done _

theorem alike_extractResults (options : ResultsOptions) (now : Int) :
    Session.Alike firstKey secondKey
      (extractResults (Client.new baseUrl firstKey timeoutSeconds) options now).run
      (extractResults (Client.new baseUrl secondKey timeoutSeconds) options now).run := by
  have hexchange := alike_exchange baseUrl firstKey secondKey timeoutSeconds
  refine Attempt.alike_bind (hexchange _ _ _ _ _) fun scenario => ?_
  exact Attempt.alike_bind (hexchange _ _ _ _ _) fun queue => .done _

end Client

/-- What is asked of a client comes to the same whatever its key is. This is about
    every server that looks at nothing but the method and the path of a request, in
    any world of files. A fault may name any URL, also that of the request with the
    key in it. -/
def KeyBlind {α : Type} (attemptOf : Client → Attempt α) : Prop :=
  ∀ (baseUrl firstKey secondKey : String) (timeoutSeconds : Option UInt64)
    (server : Method → String → Answer) (named : Request → Option Url) (σ : Type)
    (store : String → Output → σ → Except FileFault Unit × σ)
    (read : String → σ → Except FileFault (List UInt8)) (files : σ),
    let world : Surroundings σ :=
      ⟨fun request => (server request.method request.url.pathText).naming (named request), store,
        read⟩
    let first := Session.run world
      (attemptOf (Client.new baseUrl firstKey timeoutSeconds)).run files
    let second := Session.run world
      (attemptOf (Client.new baseUrl secondKey timeoutSeconds)).run files
    first.value = second.value ∧ first.files = second.files ∧
      List.Forall₂ (Request.Alike firstKey secondKey) first.requests second.requests

/-- It is enough to compare the sessions, before there is a world. -/
theorem keyBlind_of_alike {α : Type} {attemptOf : Client → Attempt α}
    (h : ∀ baseUrl firstKey secondKey timeoutSeconds, Session.Alike firstKey secondKey
      (attemptOf (Client.new baseUrl firstKey timeoutSeconds)).run
      (attemptOf (Client.new baseUrl secondKey timeoutSeconds)).run) : KeyBlind attemptOf := by
  intro baseUrl firstKey secondKey timeoutSeconds server named σ store read files
  exact (h baseUrl firstKey secondKey timeoutSeconds).run_eq _ server named rfl files

/-- A report is blind to the key, if what it asks the server is. -/
theorem ReportSteps.alike_run {Raw : Type} {firstKey secondKey : String}
    {first second : ReportSteps Session Raw} (reportOf : Raw → Report)
    (hextract : Session.Alike firstKey secondKey first.extract.run second.extract.run)
    (hfirst : ∀ raw, first.transform raw = pure (reportOf raw))
    (hsecond : ∀ raw, second.transform raw = pure (reportOf raw))
    (hload : ∀ report, Session.Alike firstKey secondKey (first.load report).run
      (second.load report).run) :
    Session.Alike firstKey secondKey first.run.run second.run.run := by
  refine Attempt.alike_bind hextract fun raw => ?_
  rw [hfirst, hsecond]
  exact Attempt.alike_bind (.done _) hload

/-- **The key shows nowhere but in its own query pair.** -/
theorem Client.keyBlind :
    (∀ directory options now, KeyBlind fun client =>
      (resultsSteps client directory options now).run) ∧
    (∀ directory options now, KeyBlind fun client =>
      (jobsSteps client directory options now).run) ∧
    (∀ job now, KeyBlind fun client => client.createJob job now) ∧
    (∀ jobId now, KeyBlind fun client => client.deleteJob jobId now) ∧
    (∀ jobId now, KeyBlind fun client => client.description jobId now) ∧
    (∀ jobId now, KeyBlind fun client => client.descriptionOrEmpty jobId now) := by
  refine ⟨fun directory options now => ?results, fun directory options now => ?jobs,
    fun job now => ?create, fun jobId now => ?delete, fun jobId now => ?description,
    fun jobId now => ?descriptionOrEmpty⟩ <;>
    refine keyBlind_of_alike fun baseUrl firstKey secondKey timeoutSeconds => ?_
  case results =>
    have hextract := alike_extractResults baseUrl firstKey secondKey timeoutSeconds options now
    exact ReportSteps.alike_run (resultsReport options) hextract (fun _ => rfl) (fun _ => rfl)
      fun report => alike_storeAll directory _
  case jobs =>
    have hextract := alike_exchange baseUrl firstKey secondKey timeoutSeconds
    exact ReportSteps.alike_run (jobsReport options) (hextract _ _ _ _ _) (fun _ => rfl)
      (fun _ => rfl) fun report => alike_storeAll directory _
  case create =>
    exact Attempt.alike_bind (alike_exchange baseUrl firstKey secondKey timeoutSeconds _ _ _ _ _)
      fun document => .done _
  case delete =>
    exact Attempt.alike_bind (alike_exchange baseUrl firstKey secondKey timeoutSeconds _ _ _ _ _)
      fun document => .done _
  case description =>
    exact alike_description baseUrl firstKey secondKey timeoutSeconds jobId now
  case descriptionOrEmpty =>
    have hdescription := alike_description baseUrl firstKey secondKey timeoutSeconds jobId now
    -- A failure is answered with no description under both keys.
    refine Attempt.alike_tryCatch hdescription fun stop => ?_
    cases stop <;> exact .done _

/-- A server that is too slow for one job and has nothing to say about the others, in a
    world that keeps what is stored. -/
def slowAnswer (_ : Method) (path : String) : Answer :=
  if path = "/api/queue/7" then .error .timedOut else .ok ⟨200, .ok []⟩

/-- The faults of the server name the URL that was asked for. -/
def slowWorld : Surroundings (List Output) :=
  ⟨fun request => (slowAnswer request.method request.url.pathText).naming (some request.url),
    fun _ output files => (.ok (), files ++ [output]), fun _ _ => .error .notFound⟩

/-- The client of a user with a key. -/
def slowClient (key : String) : Client :=
  Client.new "http://localhost/" key none

/-- The key is full of marks, one request is not answered in time, and the outcome of
    another job has nothing on it. -/
theorem Client.keyBlind_slow_server :
    let described := fun key => Session.run slowWorld ((slowClient key).description 7 0).run []
    let reported := fun key => Session.run slowWorld
      (resultsSteps (slowClient key) "out" ⟨8, .all, false, true⟩ 0).run.run []
    (described "k").value = (described "a&key=b").value ∧
      List.Forall₂ (Request.Alike "k" "a&key=b") (described "k").requests
        (described "a&key=b").requests ∧
      (reported "k").files = (reported "a&key=b").files ∧
      List.Forall₂ (Request.Alike "k" "a&key=b") (reported "k").requests
        (reported "a&key=b").requests ∧
      (described "k").value = .error (.failed (.unreachable ⟨.timedOut, none⟩)) ∧
      (described "k").requests.map (·.url.text) = ["http://localhost/api/queue/7?key=k"] ∧
      (described "a&key=b").requests.map (·.url.text) =
        ["http://localhost/api/queue/7?key=a%26key%3Db"] ∧
      (reported "k").requests.map (·.url.text) =
        ["http://localhost/api/scenario/8?key=k", "http://localhost/api/queue/8?key=k"] ∧
      (reported "k").files = [
        ⟨"dcube_results_plotting.csv", "id,name,layout,jamming,len,reliability,sent,received," ++
          "correct,missed,superfluous,causality,lat_combined,lat_mean,lat_median,lat_90,lat_95," ++
          "lat_99,energy_total,energy_setup,description\n", .truncate⟩,
        ⟨"dcube_results_readable.csv",
          "id,name,reliability,latency,energy,jamming,layout,len,description\n", .truncate⟩] := by
  intro described reported
  have hdescribed := Client.keyBlind.2.2.2.2.1 7 0 "http://localhost/" "k" "a&key=b" none
    slowAnswer (fun request => some request.url) (List Output) slowWorld.store slowWorld.read []
  have hreported := Client.keyBlind.1 "out" ⟨8, .all, false, true⟩ 0 "http://localhost/" "k"
    "a&key=b" none slowAnswer (fun request => some request.url) (List Output) slowWorld.store
    slowWorld.read []
  -- The theorem compares the two users, and what one of them sees is computed.
  refine ⟨hdescribed.1, hdescribed.2.2, hreported.2.1, hreported.2.2, rfl, ?_⟩
  decide +kernel

end TestbedReport
