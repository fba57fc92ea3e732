import TestbedReport.Arguments.Reading
import TestbedReport.Proofs.Report.Order

/-!
# Day Counts and the Calendar

The command line takes every number of 32 bits for a day count, which is more days
than the calendar has. A count that leads back to the first moment of the calendar or
less far is sent to the server as an exact span of seconds. A larger one ends the run
before anything is sent, and not with a failure that has a wording and an exit code of
its own.

Where the one turns into the other is a matter of whole days, since the calendar
begins with a day: it has 96465292 days before 1970, and as many more as have gone by
since then. Of the numbers that the command line takes about one in forty-four is
within reach.

## Main definitions

* `daysBack`: The days that the calendar has before a moment.
* `SendsSpan`: A run that gets the span of its filter to the server.

## Theorems

* `JobFilter.inCalendar_iff`: The day counts that the calendar has.
* `AsksFirst.sendsSpan`: A run that asks for its documents sends the span.
* `reports_sendSpan_iff`: A report sends its span exactly if the calendar has it.
* `pairs_outOfCalendar_largest`: A day count that is accepted and ends the run.
-/

namespace TestbedReport

/-- The whole days that the calendar has before a moment. -/
def daysBack (now : Int) : Int :=
  96465292 + now / 86400

namespace JobFilter

theorem inCalendar_iff (days : UInt32) (name : Option String) (now : Int) :
    InCalendar ⟨some days, name⟩ now ↔ (days.toNat : Int) ≤ daysBack now := by
  -- The bound is the quotient of what lies between the first moment and now.
  have hreached : firstMoment ≤ now - secondsPerDay * days.toNat ↔
      (days.toNat : Int) ≤ daysBack now := by
    unfold firstMoment secondsPerDay daysBack
    omega
  constructor
  · intro h
    exact hreached.mp (h days rfl)
  · intro h other hother
    rw [← Option.mem_some.mp hother]
    exact hreached.mpr h

end JobFilter

variable {σ : Type}

/-- A run that gets the span of its filter to the server. It sends something, all that
    it sends is for one of the places with the key and the filter behind, and it does
    not end at the calendar. -/
structure SendsSpan (client : Client) (places : List Url) (filter : JobFilter) (now : Int)
    (trace : Trace σ (Outcome (List String))) : Prop where
  asks : trace.requests ≠ []
  carries : ∀ request ∈ trace.requests, ∃ place ∈ places,
    request.url = place.addPairs ((Url.keyName, client.key) :: filter.parameters now)
  ends : trace.value ≠ .error .outOfCalendar

theorem AsksFirst.sendsSpan {client : Client} {directory : String} {wanted : List (String × Url)}
    {outputsOf : List Json → List Output} {world : Surroundings σ} {files : σ}
    {trace : Trace σ (Outcome (List String))}
    (h : AsksFirst client directory wanted outputsOf world files trace) (hwanted : wanted ≠ [])
    {places : List Url} {filter : JobFilter} {now : Int}
    (hurls : ∀ entry ∈ wanted, ∃ place ∈ places,
      entry.2 = place.addPairs ((Url.keyName, client.key) :: filter.parameters now)) :
    SendsSpan client places filter now trace := by
  rcases h with ⟨hturn, outcome, hasked, houtcome⟩
  refine ⟨?asks, ?carries, ?ends⟩
  case asks =>
    intro hnone
    rw [hnone] at hasked
    cases hasked
    exact hwanted rfl
  case carries =>
    intro request hrequest
    rcases List.mem_map.mp (hturn.subset hrequest) with ⟨entry, hentry, rfl⟩
    exact hurls entry hentry
  case ends =>
    intro hends
    -- Neither a failure nor a file is the end of the calendar.
    cases outcome with
    | error cause =>
        rw [hends] at houtcome
        exact nomatch houtcome.1
    | ok documents =>
        rcases houtcome.2.2 with hvalue | ⟨fault, hfault⟩
        · rw [hends] at hvalue
          exact nomatch hvalue
        · rw [hends] at hfault
          exact nomatch hfault

section Reports

variable (world : Surroundings σ) (files : σ) (client : Client) (directory : String) (now : Int)

theorem sendsSpan_results {options : ResultsOptions} {scenarioPlace queuePlace : Url}
    (hscenario : client.placeOf (Client.scenarioResource options.jobId) = .ok scenarioPlace)
    (hqueue : client.placeOf (Client.queueResource options.jobId) = .ok queuePlace)
    (hfilter : options.filter.InCalendar now) :
    SendsSpan client [scenarioPlace, queuePlace] options.filter now
      (Session.run world (resultsSteps client directory options now).run.run files) := by
  have hfirst := asksFirst_results world files client directory now options
    (Client.resourceUrl_eq hscenario hfilter) (Client.resourceUrl_eq hqueue hfilter)
  refine hfirst.sendsSpan (List.cons_ne_nil _ _) fun entry hentry => ?_
  rcases List.mem_cons.mp hentry with hfirstEntry | hsecondEntry
  · exact ⟨scenarioPlace, by simp, by rw [hfirstEntry]⟩
  · exact ⟨queuePlace, by simp, by rw [List.mem_singleton.mp hsecondEntry]⟩

theorem sendsSpan_jobs {options : JobsOptions} {place : Url}
    (hplace : client.placeOf options.query.resource = .ok place)
    (hfilter : options.query.filter.InCalendar now) :
    SendsSpan client [place] options.query.filter now
      (Session.run world (jobsSteps client directory options now).run.run files) := by
  have hfirst := asksFirst_jobs world files client directory now options
    (Client.resourceUrl_eq hplace hfilter)
  refine hfirst.sendsSpan (List.cons_ne_nil _ _) fun entry hentry => ?_
  rw [List.mem_singleton.mp hentry]
  exact ⟨place, List.mem_singleton_self _, rfl⟩

theorem run_results_outOfCalendar {options : ResultsOptions} {place : Url}
    (hplace : client.placeOf (Client.scenarioResource options.jobId) = .ok place)
    (hfilter : ¬options.filter.InCalendar now) :
    Session.run world (resultsSteps client directory options now).run.run files =
      ⟨.error .outOfCalendar, [], files⟩ := by
  have hextract : (resultsSteps client directory options now).extract =
      client.fetch (Client.scenarioResource options.jobId) options.filter now >>= fun scenario =>
        client.fetchQueue options.jobId options.filter now >>= fun queue =>
          pure (ScenarioData.ofDocuments scenario queue) := rfl
  refine ReportSteps.run_of_extract_error _ ?_
  -- The queue entry is not asked for once the outcome of the job is not.
  rw [hextract, Attempt.run_bind_eq, Client.run_fetch_outOfCalendar hplace hfilter]

theorem run_jobs_outOfCalendar {options : JobsOptions} {place : Url}
    (hplace : client.placeOf options.query.resource = .ok place)
    (hfilter : ¬options.query.filter.InCalendar now) :
    Session.run world (jobsSteps client directory options now).run.run files =
      ⟨.error .outOfCalendar, [], files⟩ :=
  ReportSteps.run_of_extract_error (jobsSteps client directory options now)
    (Client.run_fetch_outOfCalendar hplace hfilter world files)

/-- A run either sends its span or ends at the calendar, so one condition decides. -/
theorem sendsSpan_iff_of {places : List Url} {filter : JobFilter} {reach : Prop}
    {trace : Trace σ (Outcome (List String))}
    (hwithin : reach → SendsSpan client places filter now trace)
    (hbeyond : ¬reach → trace = ⟨.error .outOfCalendar, [], files⟩) :
    (SendsSpan client places filter now trace ↔ reach) ∧
      (¬reach → trace = ⟨.error .outOfCalendar, [], files⟩) := by
  refine ⟨⟨fun hsends => ?_, hwithin⟩, hbeyond⟩
  by_cases hreach : reach
  · exact hreach
  · have hends := hsends.ends
    rw [hbeyond hreach] at hends
    exact absurd rfl hends

/-- **A report sends its span** exactly if the calendar has the days it asks for. If
    not, it ends without a request, without a change to any file, and without a failure
    that the user could be told about. -/
theorem reports_sendSpan_iff (days : UInt32) (name : Option String) :
    (JobFilter.pairs ⟨some days, name⟩ now =
      if (days.toNat : Int) ≤ daysBack now then .ok (JobFilter.parameters ⟨some days, name⟩ now)
      else .error .outOfCalendar) ∧
    (∀ (options : ResultsOptions) (scenarioPlace queuePlace : Url),
      options.filter = ⟨some days, name⟩ →
      client.placeOf (Client.scenarioResource options.jobId) = .ok scenarioPlace →
      client.placeOf (Client.queueResource options.jobId) = .ok queuePlace →
      let trace := Session.run world (resultsSteps client directory options now).run.run files
      (SendsSpan client [scenarioPlace, queuePlace] options.filter now trace ↔
        (days.toNat : Int) ≤ daysBack now) ∧
      (¬(days.toNat : Int) ≤ daysBack now → trace = ⟨.error .outOfCalendar, [], files⟩)) ∧
    (∀ (options : JobsOptions) (place : Url),
      options.query.filter = ⟨some days, name⟩ →
      client.placeOf options.query.resource = .ok place →
      let trace := Session.run world (jobsSteps client directory options now).run.run files
      (SendsSpan client [place] options.query.filter now trace ↔
        (days.toNat : Int) ≤ daysBack now) ∧
      (¬(days.toNat : Int) ≤ daysBack now → trace = ⟨.error .outOfCalendar, [], files⟩)) := by
  have hwithin := JobFilter.inCalendar_iff days name now
  have hbeyond : ¬(days.toNat : Int) ≤ daysBack now →
      ¬JobFilter.InCalendar ⟨some days, name⟩ now := fun hreach => mt hwithin.mp hreach
  -- The two reports differ in what they ask for and not in the bound.
  refine ⟨?pairs, ?results, ?jobs⟩
  case pairs =>
    by_cases hreach : (days.toNat : Int) ≤ daysBack now
    · rw [if_pos hreach]
      exact JobFilter.pairs_eq (hwithin.mpr hreach)
    · rw [if_neg hreach]
      exact JobFilter.pairs_eq_outOfCalendar (hbeyond hreach)
  case results =>
    intro options scenarioPlace queuePlace hoptions hscenario hqueue trace
    rw [← hoptions] at hwithin hbeyond
    refine sendsSpan_iff_of files client now (fun hreach => ?_) fun hreach => ?_
    · exact sendsSpan_results world files client directory now hscenario hqueue
        (hwithin.mpr hreach)
    · exact run_results_outOfCalendar world files client directory now hscenario (hbeyond hreach)
  case jobs =>
    intro options place hoptions hplace trace
    rw [← hoptions] at hwithin hbeyond
    refine sendsSpan_iff_of files client now (fun hreach => ?_) fun hreach => ?_
    · exact sendsSpan_jobs world files client directory now hplace (hwithin.mpr hreach)
    · exact run_jobs_outOfCalendar world files client directory now hplace (hbeyond hreach)

end Reports

/-- A server that answers nothing is asked for the last week all the same. -/
theorem reports_sendSpan_iff_week :
    let client := Client.new "http://localhost/lab/" "k" (some 5)
    let world : Surroundings Unit :=
      ⟨fun _ => .error .notSent, fun _ _ files => (.ok (), files), fun _ _ => .error .notFound⟩
    let results : ResultsOptions := ⟨7, ⟨some 7, some "a b"⟩, false, true⟩
    let jobs : JobsOptions := ⟨⟨⟨some 7, some "a b"⟩, none⟩, true, false⟩
    ∃ scenarioPlace queuePlace place,
      client.placeOf (Client.scenarioResource results.jobId) = .ok scenarioPlace ∧
      client.placeOf (Client.queueResource results.jobId) = .ok queuePlace ∧
      client.placeOf jobs.query.resource = .ok place ∧
      SendsSpan client [scenarioPlace, queuePlace] results.filter 1700000000
        (Session.run world (resultsSteps client "." results 1700000000).run.run ()) ∧
      SendsSpan client [place] jobs.query.filter 1700000000
        (Session.run world (jobsSteps client "." jobs 1700000000).run.run ()) := by
  -- The places are bound first, so that their texts are read once.
  have hplaces : ∃ scenarioPlace queuePlace place,
      (Client.new "http://localhost/lab/" "k" (some 5)).placeOf (Client.scenarioResource 7) =
        .ok scenarioPlace ∧
      (Client.new "http://localhost/lab/" "k" (some 5)).placeOf (Client.queueResource 7) =
        .ok queuePlace ∧
      (Client.new "http://localhost/lab/" "k" (some 5)).placeOf "metric/adv" = .ok place :=
    ⟨_, _, _, rfl, rfl, rfl⟩
  rcases hplaces with ⟨scenarioPlace, queuePlace, place, hscenario, hqueue, hplace⟩
  intro client world results jobs
  have hspan := reports_sendSpan_iff world () client "." 1700000000 7 (some "a b")
  have hreach : ((7 : UInt32).toNat : Int) ≤ daysBack 1700000000 := by decide
  exact ⟨scenarioPlace, queuePlace, place, hscenario, hqueue, hplace,
    (hspan.2.1 results scenarioPlace queuePlace rfl hscenario hqueue).1.mpr hreach,
    (hspan.2.2 jobs place rfl hplace).1.mpr hreach⟩

/-- The command line takes a day count that no clock can go back by. -/
theorem pairs_outOfCalendar_largest :
    (Arguments.read (fun _ => none) ["jobs", "--days", "4294967295"]).map (·.command) =
        .ok (.jobs ⟨⟨⟨some 4294967295, none⟩, none⟩, false, false⟩) ∧
      (0 : Int) ≤ 1700000000 ∧ (1700000000 : Int) < 253402300800 ∧
      JobFilter.pairs ⟨some 4294967295, none⟩ 1700000000 = .error .outOfCalendar := by
  refine ⟨?_, by decide, by decide, rfl⟩
  rfl

end TestbedReport
