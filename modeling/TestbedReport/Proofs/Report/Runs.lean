import TestbedReport.Proofs.Client.Exchange
import TestbedReport.Proofs.Files.Memory
import TestbedReport.Proofs.Report.FullListing
import TestbedReport.Proofs.Report.IdLists

/-!
# One Run of a Report

A run of a report meets a server, files in memory and a moment in time. What the
server has for it decides what the run has to write, and what is refused decides
how much of that is written. Everything a run does to the files is said with
these two, and neither of them looks at the files.

Both are said here without the program. The documents are those that the server
has for the places of the resources, and what there is to write are their sheets,
one for each file of the report (`ReportRun.due`). A write succeeds if neither its
file is refused nor one that comes before it (`ReportRun.wrote`). That the log of a
run is exactly this in writing is the theorem that connects them with the program
(`ReportRun.stored_eq`).

The files of one run all have different names. So each file is written at most once
in a run, and the log has for each file either the one block that is due to it or
none (`ReportRun.filter_stored`).

## Main definitions

* `listingSheets`: What the jobs report shows of a listing in each of its files.
* `Block`: Rows for a file, above or instead of which there is something.
* `ReportRun`: A run with the world it meets.
* `ReportRun.stored`, `ReportRun.leaves`: What it stored and the files it left.
* `ReportRun.due`: What it has to write.
* `ReportRun.wrote`: What of that it wrote.
* `ReportRun.block?`: What it wrote to a file.

## Theorems

* `jobsReport_outputs`: The outputs of the jobs report are its sheets in writing.
* `ReportRun.stored_storeAll_blocks`: Blocks are stored up to the first refusal.
* `ReportRun.stored_eq`: A run stores what it has to, up to the first refusal.
* `ReportRun.due_results`, `ReportRun.due_jobs`: What a run with its documents has to
  write.
* `ReportRun.mem_due_results`, `ReportRun.mem_due_jobs`: Which files are due what.
* `ReportRun.due_nodup`: A file is due one block at most.
* `ReportRun.filter_stored`: What a run stored in a file.
-/

namespace TestbedReport

/-- What a run is to report. -/
inductive ReportKind where
  | results (options : ResultsOptions)
  | jobs (options : JobsOptions)

/-- A run of a report: who asks, where the files go, at which moment, and what is
    to be reported. The world it meets is a server and the names of the files
    that are refused. -/
structure ReportRun where
  client : Client
  directory : String
  now : Int
  kind : ReportKind
  answer : Request → Answer
  refused : String → Bool

/-- Rows for a file, and whether they replace what is there. -/
structure Block where
  mode : WriteMode
  rows : List (List String)
deriving DecidableEq

/-- A block as an output. -/
def Block.output (file : String) (block : Block) : Output :=
  ⟨file, String.ofList (Csv.write block.rows), block.mode⟩

/-- The files of the results report. -/
def resultsFiles : List String := [plottingFile, readableFile]

/-- The files of the jobs report. -/
def jobsFiles : List String := [jobsFile, jobsSummaryFile]

/-- The rows of an id list: the ids of all entries, in pairs with the word `id` if
    they are wanted. -/
def idRows (idList : Bool) : Json → List (List String)
  | .array entries =>
    entries.map fun entry => if idList then ["id", entryText entry] else [entryText entry]
  | _ => []

/-- What the jobs report shows of a listing in each of its files: all fields of every
    job and the summary, or the ids alone. -/
def listingSheets (options : JobsOptions) (listing : Json) : List (String × List (List String)) :=
  if options.detailed then
    [(jobsFile, fullSheet ((jobObjects listing).map jobFields)),
      (jobsSummaryFile, summarySheet ((jobObjects listing).map jobFields))]
  else [(jobsFile, idRows options.idList listing)]

/-- An id list is meant to show the ids of the entries. -/
theorem meant_idTable (idList : Bool) (listing : Json) :
    (idTable idList (jobIds listing)).meant false none = idRows idList listing := by
  -- What is no array has no entries, and then there is nothing to show either way.
  cases idList with
  | false =>
      rw [meant_bare]
      cases listing <;> rfl
  | true =>
      rw [meant_pairs]
      cases listing <;> rfl

/-- The outputs of the jobs report are its sheets in writing. -/
theorem jobsReport_outputs (options : JobsOptions) (listing : Json) :
    (jobsReport options listing).outputs =
      (listingSheets options listing).map fun (file, sheet) =>
        Block.output file ⟨.truncate, sheet⟩ := by
  rcases options with ⟨query, detailed, idList⟩
  cases detailed with
  | true => exact jobsReport_outputs_full query idList listing
  -- Without details there is one file, and what it shows is up to the kind of the list.
  | false =>
      have houtputs : (jobsReport ⟨query, false, idList⟩ listing).outputs =
          [⟨jobsFile, (idTable idList (jobIds listing)).toCsv false none, .truncate⟩] := rfl
      rw [houtputs, TableData.toCsv_eq_write_meant, meant_idTable]
      rfl

/-- The results report asks the server first. -/
theorem asking_extractResults (client : Client) (options : ResultsOptions) (now : Int) :
    Session.Asking (extractResults client options now).run := by
  refine Attempt.asking_bind (client.asking_exchange _ _ _ _ _) fun scenario => ?_
  exact Attempt.asking_bind (client.asking_exchange _ _ _ _ _) fun queue => Session.Asking.done _

/-- What the results report has to go on with: both documents of the server. -/
theorem toOption_run_extractResults {σ : Type} (client : Client) (options : ResultsOptions)
    (now : Int) (world : Surroundings σ) (files : σ) :
    (Session.run world (extractResults client options now).run files).value.toOption =
      (client.document? world.answer (Client.scenarioResource options.jobId) options.filter
          now).bind fun scenario =>
        (client.document? world.answer (Client.queueResource options.jobId) options.filter
          now).map fun queue => .ofDocuments scenario queue := by
  have hscenario : Session.Asking (client.fetchScenario options.jobId options.filter now).run :=
    client.asking_exchange _ _ _ _ _
  have hqueue : Session.Asking (client.fetchQueue options.jobId options.filter now).run :=
    client.asking_exchange _ _ _ _ _
  rw [extractResults, Attempt.run_bind_value hscenario, ← client.toOption_run_fetch _ _ _ _ files,
    ← client.toOption_run_fetch _ _ _ _ files, Client.fetchScenario]
  -- The queue entry is asked for only if the outcome is there.
  cases (Session.run world (client.fetch (Client.scenarioResource options.jobId) options.filter
    now).run files).value with
  | error stop => rfl
  | ok scenario =>
      simp only
      rw [Attempt.run_bind_value hqueue, Client.fetchQueue]
      cases (Session.run world (client.fetch (Client.queueResource options.jobId) options.filter
        now).run files).value with
      | error stop => rfl
      | ok queue => rfl

/-- The files of the results report and the views they show. -/
theorem mem_resultsViews {view : View} {file : String} (h : (view, file) ∈ resultsViews) :
    view = .plotting ∧ file = plottingFile ∨ view = .readable ∧ file = readableFile := by
  simpa only [resultsViews, List.mem_cons, List.not_mem_nil, or_false, Prod.mk.injEq] using h

namespace ReportRun

/-- What a run does: the three steps of its report. -/
def session (run : ReportRun) : Attempt (List String) :=
  match run.kind with
  | .results options => (resultsSteps run.client run.directory options run.now).run
  | .jobs options => (jobsSteps run.client run.directory options run.now).run

/-- The world a run meets. -/
def world (run : ReportRun) : Surroundings MemoryFiles :=
  MemoryFiles.surroundings run.answer run.refused

/-- The files a run leaves, given those it found. -/
def leaves (run : ReportRun) (found : MemoryFiles) : MemoryFiles :=
  (Session.run run.world run.session.run found).files

/-- The outputs that were stored in a run. -/
def stored (run : ReportRun) (found : MemoryFiles) : List Output :=
  Session.stored run.world run.session.run found

/-- The document that the server has for a resource, if it has one. -/
def document? (run : ReportRun) (resource : String) (filter : JobFilter) : Option Json :=
  run.client.document? run.answer resource filter run.now

/-- The outcome of the job that a run reports on. -/
def scenario? (run : ReportRun) (options : ResultsOptions) : Option Json :=
  run.document? (Client.scenarioResource options.jobId) options.filter

/-- The queue entry of the job that a run reports on. -/
def queue? (run : ReportRun) (options : ResultsOptions) : Option Json :=
  run.document? (Client.queueResource options.jobId) options.filter

/-- The job listing that a run reports. -/
def listing? (run : ReportRun) (options : JobsOptions) : Option Json :=
  run.document? options.query.resource options.query.filter

/-- What a run has to write: the sheets of its documents, each for its file, in the
    order in which the files are written. Without its documents it has nothing to
    write. -/
def due (run : ReportRun) : List (String × Block) :=
  match run.kind with
  | .results options =>
    match run.scenario? options, run.queue? options with
    | some scenario, some queue =>
      [(plottingFile, ⟨options.mode, View.plotting.sheet options.headers scenario queue⟩),
        (readableFile, ⟨options.mode, View.readable.sheet options.headers scenario queue⟩)]
    | _, _ => []
  | .jobs options =>
    match run.listing? options with
    | some listing =>
      (listingSheets options listing).map fun (file, sheet) => (file, ⟨.truncate, sheet⟩)
    | none => []

/-- What a run wrote: what it had to, up to the first file that is refused. -/
def wrote (run : ReportRun) : List (String × Block) :=
  run.due.takeWhile fun entry => !run.refused entry.1

/-- What a run wrote to a file, if its write to the file succeeded. -/
def block? (run : ReportRun) (file : String) : Option Block :=
  run.wrote.lookup file

/-- Blocks in writing are stored up to the first file that is refused. -/
theorem stored_storeAll_blocks (run : ReportRun) (entries : List (String × Block))
    (found : MemoryFiles) :
    Session.stored run.world
        (storeAll run.directory (entries.map fun entry => entry.2.output entry.1)).run found =
      (entries.takeWhile fun entry => !run.refused entry.1).map
        fun entry => entry.2.output entry.1 := by
  -- Outputs are refused by the file, so it does not matter whether they are cut off
  -- before or after they are put in writing.
  rw [world, MemoryFiles.stored_storeAll, List.takeWhile_map]
  rfl

/-- The log of a run has what it wrote, in writing. -/
theorem stored_eq (run : ReportRun) (found : MemoryFiles) :
    run.stored found = run.wrote.map fun entry => entry.2.output entry.1 := by
  unfold stored session wrote due
  cases run.kind with
  | results options =>
      have hextract : (Session.run run.world (extractResults run.client options run.now).run
          found).value.toOption = (run.scenario? options).bind fun scenario =>
            (run.queue? options).map fun queue => .ofDocuments scenario queue :=
        toOption_run_extractResults run.client options run.now run.world found
      simp only
      rw [ReportSteps.stored_run (resultsSteps run.client run.directory options run.now)
        (resultsReport options) (asking_extractResults run.client options run.now) fun raw => rfl,
        resultsSteps, hextract]
      cases run.scenario? options with
      | none => rfl
      | some scenario =>
          cases run.queue? options with
          | none => rfl
          | some queue =>
              rw [← stored_storeAll_blocks]
              exact congrArg (fun outputs => Session.stored run.world
                (storeAll run.directory outputs).run found)
                (resultsReport_outputs options scenario queue)
  | jobs options =>
      have hextract : (Session.run run.world (extractJobs run.client options run.now).run
          found).value.toOption = run.listing? options :=
        Client.toOption_run_fetch run.client _ _ run.now run.world found
      simp only
      rw [ReportSteps.stored_run (jobsSteps run.client run.directory options run.now)
        (jobsReport options) (run.client.asking_exchange _ _ _ _ _) fun raw => rfl,
        jobsSteps, hextract]
      cases run.listing? options with
      | none => rfl
      | some listing =>
          have houtputs : (jobsReport options listing).outputs.map Output.replacing =
              ((listingSheets options listing).map fun (file, sheet) =>
                (file, Block.mk .truncate sheet)).map fun entry => entry.2.output entry.1 := by
            rw [jobsReport_outputs, List.map_map, List.map_map]
            rfl
          rw [← stored_storeAll_blocks, ← houtputs]
          rfl

/-- With both documents a run of the results report has two sheets to write. -/
theorem due_results {run : ReportRun} {options : ResultsOptions} {scenario queue : Json}
    (hkind : run.kind = .results options) (hscenario : run.scenario? options = some scenario)
    (hqueue : run.queue? options = some queue) :
    run.due =
      [(plottingFile, ⟨options.mode, View.plotting.sheet options.headers scenario queue⟩),
        (readableFile, ⟨options.mode, View.readable.sheet options.headers scenario queue⟩)] := by
  simp only [due, hkind, hscenario, hqueue]

/-- Without the outcome of the job it has nothing to write. -/
theorem due_of_no_scenario {run : ReportRun} {options : ResultsOptions}
    (hkind : run.kind = .results options) (hscenario : run.scenario? options = none) :
    run.due = [] := by
  simp only [due, hkind, hscenario]

/-- With its document a run of the jobs report has the sheets of the listing to
    write. -/
theorem due_jobs {run : ReportRun} {options : JobsOptions} {listing : Json}
    (hkind : run.kind = .jobs options) (hlisting : run.listing? options = some listing) :
    run.due =
      (listingSheets options listing).map fun (file, sheet) => (file, ⟨.truncate, sheet⟩) := by
  simp only [due, hkind, hlisting]

/-- A run of the results report has the sheets of its views to write. -/
theorem mem_due_results {run : ReportRun} {options : ResultsOptions}
    (hkind : run.kind = .results options) {file : String} {block : Block}
    (h : (file, block) ∈ run.due) :
    ∃ view scenario queue, (view, file) ∈ resultsViews ∧
      block = ⟨options.mode, View.sheet view options.headers scenario queue⟩ := by
  cases hscenario : run.scenario? options with
  | none =>
      rw [due_of_no_scenario hkind hscenario] at h
      exact absurd h List.not_mem_nil
  | some scenario =>
      cases hqueue : run.queue? options with
      | none =>
          simp only [due, hkind, hscenario, hqueue, List.not_mem_nil] at h
      | some queue =>
          simp only [due_results hkind hscenario hqueue, List.mem_cons, List.not_mem_nil, or_false,
            Prod.mk.injEq] at h
          rcases h with ⟨rfl, rfl⟩ | ⟨rfl, rfl⟩
          · exact ⟨.plotting, scenario, queue, by decide, rfl⟩
          · exact ⟨.readable, scenario, queue, by decide, rfl⟩

/-- A run of the jobs report has jobs files to write, and they replace what is
    there. -/
theorem mem_due_jobs {run : ReportRun} {options : JobsOptions} (hkind : run.kind = .jobs options)
    {file : String} {block : Block} (h : (file, block) ∈ run.due) :
    file ∈ jobsFiles ∧ block.mode = .truncate := by
  cases hlisting : run.listing? options with
  | none =>
      simp only [due, hkind, hlisting, List.not_mem_nil] at h
  | some listing =>
      simp only [due_jobs hkind hlisting, List.mem_map, Prod.mk.injEq] at h
      rcases h with ⟨⟨name, sheet⟩, hsheet, rfl, rfl⟩
      refine ⟨?_, rfl⟩
      -- The summary is among the files of a full listing only.
      unfold listingSheets at hsheet
      split at hsheet
      · exact List.mem_map_of_mem (f := Prod.fst) hsheet
      · rw [List.mem_singleton, Prod.mk.injEq] at hsheet
        rw [hsheet.1]
        exact List.mem_cons_self

/-- A file is due one block at most. -/
theorem due_nodup (run : ReportRun) : (run.due.map (·.1)).Nodup := by
  unfold due
  split
  · next options _ =>
    split
    · exact (by decide : resultsFiles.Nodup)
    · exact List.nodup_nil
  · next options _ =>
    split
    · unfold listingSheets
      split
      · exact (by decide : jobsFiles.Nodup)
      · exact List.nodup_singleton jobsFile
    · exact List.nodup_nil

/-- What a run wrote to a file was due to it. -/
theorem mem_due_of_block? {run : ReportRun} {file : String} {block : Block}
    (h : run.block? file = some block) : (file, block) ∈ run.due := by
  have hsub : run.wrote.Sublist run.due := List.takeWhile_sublist _
  exact hsub.subset ((Keyed.lookup_eq_some_iff_mem _ ((hsub.map _).nodup run.due_nodup) _ _).mp h)

/-- A file is written at most once in a run: with the block that the run wrote to
    it, if there is one. -/
theorem filter_stored (run : ReportRun) (found : MemoryFiles) (file : String) :
    (run.stored found).filter (fun o => o.file = file) =
      ((run.block? file).map (Block.output file)).toList := by
  have hsub : run.wrote.Sublist run.due := List.takeWhile_sublist _
  have hnames : (fun o : Output => decide (o.file = file)) ∘
      (fun entry : String × Block => entry.2.output entry.1) =
        fun entry => decide (entry.1 = file) := rfl
  -- Names are due once, so those of one name are what is found under it.
  rw [stored_eq, List.filter_map, hnames, block?,
    Keyed.filter_eq_toList_lookup _ ((hsub.map _).nodup run.due_nodup)]
  cases run.wrote.lookup file with
  | none => rfl
  | some block => rfl

/-- A run wrote to the files of its log. -/
theorem isSome_block?_iff (run : ReportRun) (found : MemoryFiles) (file : String) :
    (run.block? file).isSome = true ↔ file ∈ (run.stored found).map (·.file) := by
  have hfiles : (run.stored found).map (·.file) = run.wrote.map (·.1) := by
    rw [stored_eq, List.map_map]
    rfl
  rw [block?, Keyed.isSome_lookup_iff, hfiles]

/-- A run of the jobs report writes nothing to a results file. -/
theorem block?_of_jobs {run : ReportRun} {options : JobsOptions} (hkind : run.kind = .jobs options)
    {file : String} (hfile : file ∈ resultsFiles) : run.block? file = none := by
  have hother : ∀ name ∈ resultsFiles, name ∉ jobsFiles := by decide
  refine Option.eq_none_iff_forall_ne_some.mpr fun block hblock => ?_
  exact hother file hfile (mem_due_jobs hkind (mem_due_of_block? hblock)).1

/-- A run of the results report writes nothing to a jobs file. -/
theorem block?_of_results {run : ReportRun} {options : ResultsOptions}
    (hkind : run.kind = .results options) {file : String} (hfile : file ∈ jobsFiles) :
    run.block? file = none := by
  have hother : ∀ entry ∈ resultsViews, entry.2 ∉ jobsFiles := by decide
  refine Option.eq_none_iff_forall_ne_some.mpr fun block hblock => ?_
  rcases mem_due_results hkind (mem_due_of_block? hblock) with ⟨view, _, _, hview, _⟩
  exact hother (view, file) hview hfile

end ReportRun

end TestbedReport
