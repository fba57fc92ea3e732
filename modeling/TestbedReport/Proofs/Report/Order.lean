import TestbedReport.Proofs.Client.Exchange
import TestbedReport.Proofs.Report.Load
import TestbedReport.Report.Run

/-!
# A Report Asks First and Stores Last

A report needs documents before it has anything to write. It asks for them one
after the other, and as long as one can still fail no file is touched. So a run
that fails on a document has left no trace, and a run that has all its documents
can fail only where it stores, because there is nothing between the two that fails.

`AsksFirst` says this of one run in any world: of a server that may answer as it
likes and of files that may be stored in any way. The two reports differ in what
they ask for and in what they make of it, and in nothing else.

## Main definitions

* `AsksFirst`: A run that asks for documents and then stores outputs.

## Theorems

* `Asked.requests_prefix`: No request is sent out of turn.
* `run_storeAll`: Storing sends no requests and fails on files alone.
* `ReportSteps.run_of_extract_error`, `ReportSteps.run_of_extract_ok`: What becomes
  of a run behind its first step.
* `asksFirst_results`, `asksFirst_jobs`: The two reports.
* `reports_ask_first`: A failed run leaves no trace.
-/

namespace TestbedReport

variable {σ : Type}

/-- A run asks for documents in order and stores outputs when it has them all. If a
    document fails, the run ends with that failure, and the files are as they were. -/
def AsksFirst (client : Client) (directory : String) (wanted : List (String × Url))
    (outputsOf : List Json → List Output) (world : Surroundings σ) (files : σ)
    (trace : Trace σ (Outcome (List String))) : Prop :=
  trace.requests <+: wanted.map (fun entry => ⟨.get, entry.2, "", client.timeoutSeconds⟩) ∧
    ∃ outcome, Asked client world.answer wanted trace.requests outcome ∧
      match outcome with
      | .error cause => trace.value = .error (.failed cause) ∧ trace.files = files
      | .ok documents =>
        let stored := Session.run world (storeAll directory (outputsOf documents)).run files
        trace.value = stored.value ∧ trace.files = stored.files ∧
          (trace.value = .ok ((outputsOf documents).map fun o => storedPath directory o.file) ∨
            ∃ fault, trace.value = .error (.failed (.file fault)))

theorem Asked.requests_prefix {client : Client} {answer : Request → Answer}
    {wanted : List (String × Url)} {requests : List Request}
    {outcome : Except Failure (List Json)} (h : Asked client answer wanted requests outcome) :
    requests <+: wanted.map fun entry => ⟨.get, entry.2, "", client.timeoutSeconds⟩ := by
  induction h with
  | done => exact List.prefix_rfl
  -- The run ends here, and the requests that were not sent are the rest.
  | failed resource url rest cause _ =>
      rw [List.map_cons]
      exact (List.prefix_cons_inj _).mpr List.nil_prefix
  | next resource url rest document requests outcome _ _ ih =>
      rw [List.map_cons]
      exact (List.prefix_cons_inj _).mpr ih

theorem run_storeAll (directory : String) (outputs : List Output) (world : Surroundings σ)
    (files : σ) :
    (Session.run world (storeAll directory outputs).run files).requests = [] ∧
      ((Session.run world (storeAll directory outputs).run files).value =
          .ok (outputs.map fun o => storedPath directory o.file) ∨
        ∃ fault, (Session.run world (storeAll directory outputs).run files).value =
          .error (.failed (.file fault))) := by
  -- Each output leaves other files, and the rest is stored there.
  induction outputs generalizing files with
  | nil => exact ⟨rfl, Or.inl rfl⟩
  | cons o rest ih =>
      rcases hstore : world.store directory o files with ⟨result, after⟩
      cases result with
      | error fault =>
          rw [run_storeAll_of_error directory hstore]
          exact ⟨rfl, Or.inr ⟨fault, rfl⟩⟩
      | ok done =>
          rw [run_storeAll_of_ok directory hstore]
          rcases ih after with ⟨hrequests, hvalue | ⟨fault, hfault⟩⟩
          · exact ⟨hrequests, Or.inl (congrArg (Except.map _) hvalue)⟩
          · exact ⟨hrequests, Or.inr ⟨fault, congrArg (Except.map _) hfault⟩⟩

namespace ReportSteps

variable {Raw : Type} (steps : ReportSteps Session Raw) {world : Surroundings σ} {files after : σ}
  {requests : List Request}

theorem run_of_extract_error {stop : Stop}
    (h : Session.run world steps.extract.run files = ⟨.error stop, requests, after⟩) :
    Session.run world steps.run.run files = ⟨.error stop, requests, after⟩ := by
  rw [run, Attempt.run_bind_eq, h]

theorem run_of_extract_ok {raw : Raw} {report : Report}
    (h : Session.run world steps.extract.run files = ⟨.ok raw, requests, after⟩)
    (htransform : steps.transform raw = pure report) :
    Session.run world steps.run.run files =
      let loaded := Session.run world (steps.load report).run after
      { loaded with requests := requests ++ loaded.requests } := by
  rw [run, Attempt.run_bind_eq, h]
  simp only [htransform]
  rfl

/-- A run asks first if its first step does and leaves nothing to fail but the
    storing of its outputs. -/
theorem asksFirst {client : Client} {directory : String} {wanted : List (String × Url)}
    {outputsOf : List Json → List Output} {outcome : Except Failure (List Json)}
    (reportOf : Raw → Report) (rawOf : List Json → Raw)
    (hasked : Asked client world.answer wanted requests outcome)
    (hextract : Session.run world steps.extract.run files =
      ⟨(outcome.map rawOf).mapError Stop.failed, requests, files⟩)
    (htransform : ∀ raw, steps.transform raw = pure (reportOf raw))
    (hload : ∀ documents, outcome = .ok documents →
      steps.load (reportOf (rawOf documents)) = storeAll directory (outputsOf documents)) :
    AsksFirst client directory wanted outputsOf world files
      (Session.run world steps.run.run files) := by
  cases outcome with
  | error cause =>
      rw [steps.run_of_extract_error hextract]
      exact ⟨hasked.requests_prefix, .error cause, hasked, rfl, rfl⟩
  -- With all documents there, what is left is to store the outputs.
  | ok documents =>
      rw [steps.run_of_extract_ok hextract (htransform _), hload documents rfl]
      rcases run_storeAll directory (outputsOf documents) world files with ⟨hnone, hvalue⟩
      simp only [hnone, List.append_nil]
      exact ⟨hasked.requests_prefix, .ok documents, hasked, rfl, rfl, hvalue⟩

end ReportSteps

section Reports

variable (world : Surroundings σ) (files : σ) (client : Client) (directory : String) (now : Int)

/-- What the results report stores of its two documents. -/
def resultsOutputs (options : ResultsOptions) : List Json → List Output
  | [scenario, queue] => (resultsReport options (.ofDocuments scenario queue)).outputs
  | _ => []

/-- What the jobs report stores of its document. -/
def jobsOutputs (options : JobsOptions) : List Json → List Output
  | [listing] => (jobsReport options listing).outputs.map Output.replacing
  | _ => []

theorem asksFirst_results (options : ResultsOptions) {scenarioUrl queueUrl : Url}
    (hscenario : client.resourceUrl (Client.scenarioResource options.jobId) options.filter now =
      .ok scenarioUrl)
    (hqueue : client.resourceUrl (Client.queueResource options.jobId) options.filter now =
      .ok queueUrl) :
    AsksFirst client directory
      [(Client.scenarioResource options.jobId, scenarioUrl),
        (Client.queueResource options.jobId, queueUrl)] (resultsOutputs options) world files
      (Session.run world (resultsSteps client directory options now).run.run files) := by
  let dataOf : List Json → ScenarioData := fun documents =>
    .ofDocuments (documents.getD 0 .null) (documents.getD 1 .null)
  rcases Client.run_fetch_bind hscenario (fun scenario =>
      client.fetchQueue options.jobId options.filter now >>= fun queue =>
        pure (ScenarioData.ofDocuments scenario queue)) world files with
    ⟨scenarioOutcome, hscenarioWorth, hextract⟩
  -- The queue entry is asked for only behind an outcome of the job.
  cases scenarioOutcome with
  | error cause =>
      exact (resultsSteps client directory options now).asksFirst (resultsReport options) dataOf
        (.failed _ _ _ cause hscenarioWorth) hextract (fun _ => rfl) fun _ h => nomatch h
  | ok scenario =>
      rcases Client.run_fetch_bind hqueue
          (fun queue => pure (ScenarioData.ofDocuments scenario queue)) world files with
        ⟨queueOutcome, hqueueWorth, hrest⟩
      simp only [Client.fetchQueue, hrest] at hextract
      cases queueOutcome with
      | error cause =>
          exact (resultsSteps client directory options now).asksFirst (resultsReport options) dataOf
            (.next _ _ _ scenario _ _ hscenarioWorth (.failed _ _ _ cause hqueueWorth)) hextract
            (fun _ => rfl) fun _ h => nomatch h
      | ok queue =>
          refine (resultsSteps client directory options now).asksFirst (resultsReport options) dataOf
            (.next _ _ _ scenario _ _ hscenarioWorth (.next _ _ _ queue _ _ hqueueWorth .done))
            hextract (fun _ => rfl) fun documents h => ?_
          rw [← Except.ok.inj h]
          rfl

theorem asksFirst_jobs (options : JobsOptions) {url : Url}
    (hurl : client.resourceUrl options.query.resource options.query.filter now = .ok url) :
    AsksFirst client directory [(options.query.resource, url)] (jobsOutputs options) world files
      (Session.run world (jobsSteps client directory options now).run.run files) := by
  let listingOf : List Json → Json := fun documents => documents.getD 0 .null
  rcases Client.exists_worth options.query.resource
      (world.answer ⟨.get, url, "", client.timeoutSeconds⟩) with ⟨outcome, hworth, hinterpret⟩
  have hextract := Client.run_exchange hurl .get "" world files
  rw [hinterpret] at hextract
  -- One document is asked for, so its answer is the first and the last one.
  cases outcome with
  | error cause =>
      exact (jobsSteps client directory options now).asksFirst (jobsReport options) listingOf
        (.failed _ _ _ cause hworth) hextract (fun _ => rfl) fun _ h => nomatch h
  | ok listing =>
      refine (jobsSteps client directory options now).asksFirst (jobsReport options) listingOf
        (.next _ _ _ listing _ _ hworth .done) hextract (fun _ => rfl) fun documents h => ?_
      rw [← Except.ok.inj h]
      rfl

/-- **A run that fails before it stores leaves no trace.** The results report asks
    for the outcome of the job and then for its queue entry, the jobs report for the
    listing, each at its place with the key and the filter it was given. The first
    answer that brings no document ends the run with its failure and all files as they
    were. With all documents there, nothing but a file can fail. -/
theorem reports_ask_first :
    (∀ (options : ResultsOptions) (scenarioPlace queuePlace : Url),
      client.placeOf (Client.scenarioResource options.jobId) = .ok scenarioPlace →
      client.placeOf (Client.queueResource options.jobId) = .ok queuePlace →
      options.filter.InCalendar now →
      let pairs := (Url.keyName, client.key) :: options.filter.parameters now
      AsksFirst client directory
        [(Client.scenarioResource options.jobId, scenarioPlace.addPairs pairs),
          (Client.queueResource options.jobId, queuePlace.addPairs pairs)]
        (resultsOutputs options) world files
        (Session.run world (resultsSteps client directory options now).run.run files)) ∧
    (∀ (options : JobsOptions) (place : Url),
      client.placeOf options.query.resource = .ok place →
      options.query.filter.InCalendar now →
      let pairs := (Url.keyName, client.key) :: options.query.filter.parameters now
      AsksFirst client directory [(options.query.resource, place.addPairs pairs)]
        (jobsOutputs options) world files
        (Session.run world (jobsSteps client directory options now).run.run files)) := by
  constructor
  · intro options scenarioPlace queuePlace hscenario hqueue hfilter pairs
    exact asksFirst_results world files client directory now options
      (Client.resourceUrl_eq hscenario hfilter) (Client.resourceUrl_eq hqueue hfilter)
  · intro options place hplace hfilter pairs
    exact asksFirst_jobs world files client directory now options
      (Client.resourceUrl_eq hplace hfilter)

end Reports

/-- A client of a server with a path of its own. -/
def labClient : Client :=
  Client.new "http://localhost/lab/" "k" (some 5)

/-- A URL there with the key, with the span of a week and with a name. -/
def weekUrl (path : List String) : Url :=
  ⟨"http", some ⟨"", none, .domain "localhost", none⟩, .segments ("lab" :: "api" :: path),
    some "key=k&stop=1700000000&start=1699395200&name=a+b", none⟩

/-- The server has an outcome without rows, no queue entry and no listing. -/
def labWorld : Surroundings Unit :=
  ⟨fun request => .ok ⟨if request.url.pathText = "/lab/api/scenario/7" then 200 else 404, .ok []⟩,
    fun _ _ files => (.ok (), files), fun _ _ => .error .notFound⟩

/-- A job of the week. -/
def weekResults : ResultsOptions := ⟨7, ⟨some 7, some "a b"⟩, false, true⟩

/-- The jobs of the week. -/
def weekJobs : JobsOptions := ⟨⟨⟨some 7, some "a b"⟩, none⟩, true, false⟩

/-- The queue entry is asked for behind the outcome, and the run ends there. -/
theorem run_weekResults :
    Session.run labWorld (resultsSteps labClient "." weekResults 1700000000).run.run () =
      ⟨.error (.failed (.rejected 404 "queue/7")),
        [⟨.get, weekUrl ["scenario", "7"], "", some 5⟩, ⟨.get, weekUrl ["queue", "7"], "", some 5⟩],
        ()⟩ := by
  have hscenario : labClient.resourceUrl (Client.scenarioResource weekResults.jobId)
      weekResults.filter 1700000000 = .ok (weekUrl ["scenario", "7"]) := by rfl
  have hqueue : labClient.resourceUrl (Client.queueResource weekResults.jobId)
      weekResults.filter 1700000000 = .ok (weekUrl ["queue", "7"]) := by rfl
  have hthere : labWorld.answer ⟨.get, weekUrl ["scenario", "7"], "", labClient.timeoutSeconds⟩ =
      .ok ⟨200, .ok []⟩ := by
    have hpath : (weekUrl ["scenario", "7"]).pathText = "/lab/api/scenario/7" := by decide
    simp only [labWorld, if_pos hpath]
  have hmissing : labWorld.answer ⟨.get, weekUrl ["queue", "7"], "", labClient.timeoutSeconds⟩ =
      .ok ⟨404, .ok []⟩ := by
    have hpath : (weekUrl ["queue", "7"]).pathText ≠ "/lab/api/scenario/7" := by decide
    simp only [labWorld, if_neg hpath]
  -- A body of nothing is a document, so the run goes on from there.
  have hblank : Client.interpret (Client.scenarioResource weekResults.jobId)
      (.ok ⟨200, .ok []⟩) = .ok .null := rfl
  refine (resultsSteps labClient "." weekResults 1700000000).run_of_extract_error ?_
  rw [resultsSteps, extractResults, Attempt.run_bind_eq, Client.fetchScenario, Client.fetch,
    Client.run_exchange hscenario, hthere]
  simp only [hblank]
  rw [Attempt.run_bind_eq, Client.fetchQueue, Client.fetch, Client.run_exchange hqueue, hmissing]
  rfl

/-- The server is asked twice for a result of the week and once for the jobs of the
    week. -/
theorem reports_ask_first_missing_queue :
    AsksFirst labClient "."
        [("scenario/7", weekUrl ["scenario", "7"]), ("queue/7", weekUrl ["queue", "7"])]
        (resultsOutputs weekResults) labWorld ()
        (Session.run labWorld (resultsSteps labClient "." weekResults 1700000000).run.run ()) ∧
      AsksFirst labClient "." [("metric/adv", weekUrl ["metric", "adv"])] (jobsOutputs weekJobs)
        labWorld () (Session.run labWorld (jobsSteps labClient "." weekJobs 1700000000).run.run
          ()) ∧
      Session.run labWorld (resultsSteps labClient "." weekResults 1700000000).run.run () =
        ⟨.error (.failed (.rejected 404 "queue/7")),
          [⟨.get, weekUrl ["scenario", "7"], "", some 5⟩,
            ⟨.get, weekUrl ["queue", "7"], "", some 5⟩], ()⟩ ∧
      Session.run labWorld (jobsSteps labClient "." weekJobs 1700000000).run.run () =
        ⟨.error (.failed (.rejected 404 "metric/adv")),
          [⟨.get, weekUrl ["metric", "adv"], "", some 5⟩], ()⟩ ∧
      (weekUrl ["metric", "adv"]).text =
        "http://localhost/lab/api/metric/adv?key=k&stop=1700000000&start=1699395200&name=a+b" := by
  have hresults : weekResults.filter.InCalendar 1700000000 := by decide
  have hjobs : weekJobs.query.filter.InCalendar 1700000000 := by decide
  have hfirst := reports_ask_first labWorld () labClient "." 1700000000
  -- The places are those of the URLs, before there are pairs behind them.
  refine ⟨?reported, ?listed, run_weekResults, by rfl, by decide +kernel⟩
  case reported =>
    exact hfirst.1 weekResults ⟨"http", some ⟨"", none, .domain "localhost", none⟩,
      .segments ["lab", "api", "scenario", "7"], none, none⟩ ⟨"http",
      some ⟨"", none, .domain "localhost", none⟩, .segments ["lab", "api", "queue", "7"], none,
      none⟩ rfl rfl hresults
  case listed =>
    exact hfirst.2 weekJobs ⟨"http", some ⟨"", none, .domain "localhost", none⟩,
      .segments ["lab", "api", "metric", "adv"], none, none⟩ rfl hjobs

end TestbedReport
