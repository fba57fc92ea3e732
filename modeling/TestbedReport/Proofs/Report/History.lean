import TestbedReport.Proofs.Report.Runs

/-!
# Report Files over a History of Runs

Runs of both reports follow one another on the same files. Some extend what is
there, some replace it, some are refused one file and not the other, and some
fail before they write anything. What a file holds in the end is still simple:
the results files show the blocks that were written to them since they were last
replaced, one below the other, and a jobs file is the last listing written to it.

The invariant is that the text of a file is always the writing of a grid. A block is
the writing of a grid too, and grids written one behind the other are one grid
(`Csv.write_append`), so extending the file puts the rows of the block below those
before them. No run looks at what the file holds, so this is all that has to be
preserved. That the file is well formed, with every line ended and every quote
closed, is not stated anywhere: it is part of being a writing.

What was written by a history is a matter of what each run wrote by itself, because
no run depends on the files it finds. So there is one list of blocks for each file
(`blocks`), and it is made of what the servers have and what is refused.

## Main definitions

* `filesBehind`: The files behind a history of runs.
* `blocks`: What the runs of a history wrote to a file.
* `Block.below`: The rows of a file behind a block.
* `sinceReplaced`: The blocks since a file was last replaced.

## Theorems

* `lookup_filesBehind`: A file changes by what the runs wrote to it.
* `foldl_heldBehind_blocks`: The text of a file is the writing of its rows.
* `foldl_below`: The rows of a file are those since it was last replaced.
* `filesBehind_reads_back`: What the files of the reports show behind any history.
-/

namespace TestbedReport

/-- The files behind a history of runs, given those before it. -/
def filesBehind : List ReportRun → MemoryFiles → MemoryFiles
  | [], files => files
  | run :: rest, files => filesBehind rest (run.leaves files)

/-- What the runs of a history wrote to a file, in order. -/
def blocks (file : String) (history : List ReportRun) : List Block :=
  history.filterMap (·.block? file)

/-- The rows of a file behind a block, given those before it. -/
def Block.below (rows : List (List String)) (block : Block) : List (List String) :=
  match block.mode with
  | .truncate => block.rows
  | .append => rows ++ block.rows

/-- The blocks from the last one on that replaced what was there, or all of them
    if none did. -/
def sinceReplaced : List Block → List Block
  | [] => []
  | block :: rest =>
    if rest.any fun later => later.mode = .truncate then sinceReplaced rest else block :: rest

/-- A run leaves a file with the outputs of its name applied. -/
theorem ReportRun.lookup_leaves (run : ReportRun) (found : MemoryFiles) (file : String) :
    (run.leaves found).lookup file =
      ((run.stored found).filter fun o => o.file = file).foldl MemoryFiles.heldBehind
        (found.lookup file) := by
  rw [leaves, world, MemoryFiles.run_files, MemoryFiles.lookup_foldl_applied]
  rfl

/-- A file changes by what the runs of a history wrote to it, and by nothing
    else. -/
theorem lookup_filesBehind (file : String) (history : List ReportRun) (files : MemoryFiles) :
    (filesBehind history files).lookup file =
      ((blocks file history).map (Block.output file)).foldl MemoryFiles.heldBehind
        (files.lookup file) := by
  induction history generalizing files with
  | nil => rfl
  | cons run rest ih =>
      -- The rest of the history starts from the files that the first run leaves.
      rw [filesBehind, ih, run.lookup_leaves, run.filter_stored, blocks, blocks,
        List.filterMap_cons]
      cases run.block? file with
      | none => rfl
      | some block => rfl

/-- A block in writing goes below a grid in writing. -/
theorem Block.appliedTo_output (file : String) (rows : List (List String)) (block : Block) :
    (block.output file).appliedTo (String.ofList (Csv.write rows)) =
      String.ofList (Csv.write (block.below rows)) := by
  unfold Block.output Output.appliedTo Block.below
  cases block.mode with
  | truncate => rfl
  | append =>
      simp only [Csv.write_append, String.ofList_append]

/-- The text of a file is the writing of its rows, behind any blocks. -/
theorem foldl_heldBehind_blocks (file : String) (written : List Block) (held : Option String)
    (rows : List (List String)) (h : held.getD "" = String.ofList (Csv.write rows)) :
    ((written.map (Block.output file)).foldl MemoryFiles.heldBehind held).getD "" =
      String.ofList (Csv.write (written.foldl Block.below rows)) := by
  induction written generalizing held rows with
  | nil => exact h
  | cons block rest ih =>
      rw [List.map_cons, List.foldl_cons, List.foldl_cons]
      refine ih _ _ ?_
      rw [MemoryFiles.heldBehind, Option.getD_some, h, block.appliedTo_output]

/-- If no block replaced what was there, all of them count. -/
theorem sinceReplaced_eq_self (written : List Block)
    (h : ¬(written.any fun block => block.mode = .truncate) = true) :
    sinceReplaced written = written := by
  cases written with
  | nil => rfl
  | cons block rest =>
      -- The first block may have any mode, since nothing before it counts.
      have hlater : ¬(rest.any fun later => later.mode = .truncate) = true := by
        intro hany
        rw [List.any_cons, hany, Bool.or_true] at h
        exact h rfl
      rw [sinceReplaced, if_neg hlater]

/-- The rows of a file are those of the blocks since it was last replaced, below
    the rows it had if it was not. -/
theorem foldl_below (written : List Block) (rows : List (List String)) :
    written.foldl Block.below rows =
      (if written.any fun block => block.mode = .truncate then [] else rows) ++
        (sinceReplaced written).flatMap (·.rows) := by
  induction written generalizing rows with
  | nil => exact (List.append_nil rows).symm
  | cons block rest ih =>
      rw [List.foldl_cons, ih, sinceReplaced, List.any_cons]
      by_cases hlater : (rest.any fun later => later.mode = .truncate) = true
      · -- A later block replaces this one with all that was before it.
        rw [if_pos hlater, if_pos hlater, hlater, Bool.or_true, if_pos rfl]
      · rw [if_neg hlater, if_neg hlater, sinceReplaced_eq_self rest hlater, List.flatMap_cons,
          ← List.append_assoc, Bool.eq_false_iff.mpr hlater, Bool.or_false]
        -- The block is the last one that can have replaced the rows before it.
        unfold Block.below
        cases hmode : block.mode with
        | truncate => rfl
        | append => rfl

-- Blocks that extend a file stay as long as no later one replaces it.
example (upper lower : List (List String)) :
    sinceReplaced [⟨.append, []⟩, ⟨.truncate, upper⟩, ⟨.append, lower⟩] =
      [⟨.truncate, upper⟩, ⟨.append, lower⟩] := rfl

/-- The blocks since a file was last replaced are among those written to it. -/
theorem mem_of_mem_sinceReplaced (written : List Block) (block : Block)
    (h : block ∈ sinceReplaced written) : block ∈ written := by
  induction written with
  | nil => exact h
  | cons first rest ih =>
      rw [sinceReplaced] at h
      split at h
      · exact List.mem_cons_of_mem first (ih h)
      · exact h

/-- The last of several blocks stays if each of them replaces what is there. -/
theorem foldl_heldBehind_replacing (file : String) (written : List Block)
    (h : ∀ block ∈ written, block.mode = .truncate) (held : Option String) :
    (written.map (Block.output file)).foldl MemoryFiles.heldBehind held =
      (written.getLast?.map fun block => String.ofList (Csv.write block.rows)).or held := by
  induction written generalizing held with
  | nil => rfl
  | cons block rest ih =>
      rcases List.forall_mem_cons.mp h with ⟨hblock, hrest⟩
      -- What a file held before a block that replaces it does not matter.
      have hheld : MemoryFiles.heldBehind held (block.output file) =
          some (String.ofList (Csv.write block.rows)) := by
        rw [MemoryFiles.heldBehind, Block.output, Output.appliedTo, hblock]
      rw [List.map_cons, List.foldl_cons, ih hrest, hheld, List.getLast?_cons]
      cases rest.getLast? with
      | none => rfl
      | some last => rfl

/-- What a run wrote to the file of a view has a field for every column of the view
    in each of its rows. -/
theorem ReportRun.length_of_mem_block {run : ReportRun} {view : View} {file : String}
    (hview : (view, file) ∈ resultsViews) {block : Block} (h : run.block? file = some block)
    (row : List String) (hrow : row ∈ block.rows) : row.length = view.header.length := by
  cases hkind : run.kind with
  | jobs options =>
      have hother : ∀ entry ∈ resultsViews, entry.2 ∉ jobsFiles := by decide
      exact absurd (mem_due_jobs hkind (mem_due_of_block? h)).1 (hother (view, file) hview)
  | results options =>
      rcases mem_due_results hkind (mem_due_of_block? h) with
        ⟨shown, scenario, queue, hshown, rfl⟩
      -- Each file has one view.
      have hone : ∀ first ∈ resultsViews, ∀ second ∈ resultsViews,
          first.2 = second.2 → first.1 = second.1 := by decide
      have hsame : shown = view := hone (shown, file) hshown (view, file) hview rfl
      rw [← hsame]
      exact length_of_mem_sheet shown options.headers scenario queue row hrow

/-- The rows since a file was last replaced have a field for every column. -/
theorem length_of_mem_sinceReplaced {view : View} {file : String}
    (hview : (view, file) ∈ resultsViews) (history : List ReportRun) (row : List String)
    (h : row ∈ (sinceReplaced (blocks file history)).flatMap (·.rows)) :
    row.length = view.header.length := by
  rcases List.mem_flatMap.mp h with ⟨block, hblock, hrow⟩
  rcases List.mem_filterMap.mp (mem_of_mem_sinceReplaced _ block hblock) with ⟨run, _, hwrote⟩
  exact run.length_of_mem_block hview hwrote row hrow

/-- A results file shows the blocks since it was last replaced, one below the
    other. -/
theorem read_content_filesBehind {view : View} {file : String}
    (hview : (view, file) ∈ resultsViews) (history : List ReportRun) :
    Csv.read ((filesBehind history []).content file).toList =
      (sinceReplaced (blocks file history)).flatMap (·.rows) := by
  have htext : (filesBehind history []).content file =
      String.ofList (Csv.write ((sinceReplaced (blocks file history)).flatMap (·.rows))) := by
    rw [MemoryFiles.content, lookup_filesBehind, foldl_heldBehind_blocks file _ _ [] rfl,
      foldl_below, ite_self, List.nil_append]
  rw [htext, String.toList_ofList]
  exact view.read_write _ (length_of_mem_sinceReplaced hview history)

/-- A jobs file holds the last block that was written to it. -/
theorem lookup_jobs_filesBehind (file : String) (h : file ∈ jobsFiles)
    (history : List ReportRun) :
    (filesBehind history []).lookup file =
      (blocks file history).getLast?.map fun block => String.ofList (Csv.write block.rows) := by
  have hmode : ∀ block ∈ blocks file history, block.mode = .truncate := by
    intro block hblock
    rcases List.mem_filterMap.mp hblock with ⟨run, _, hwrote⟩
    -- It was a run of the jobs report, since no other writes to the file.
    cases hkind : run.kind with
    | jobs options => exact (ReportRun.mem_due_jobs hkind (ReportRun.mem_due_of_block? hwrote)).2
    | results options =>
        rw [ReportRun.block?_of_results hkind h] at hwrote
        exact nomatch hwrote
  rw [lookup_filesBehind, foldl_heldBehind_replacing file _ hmode]
  exact Option.or_none

/-- A run that wrote nothing to a file leaves it alone. -/
theorem ReportRun.lookup_leaves_of_none {run : ReportRun} {file : String}
    (h : run.block? file = none) (found : MemoryFiles) :
    (run.leaves found).lookup file = found.lookup file := by
  rw [lookup_leaves, filter_stored, h]
  rfl

/-- What the files of the reports hold behind any history of runs that starts
    without files. A results file shows exactly the rows that the results runs
    wrote to it since it was last replaced, so what is put behind a row never
    changes, splits or joins it, and every row has all its columns. A jobs file
    is as the last jobs run left it that could write it. No run touches the files
    of the other report. -/
theorem filesBehind_reads_back (history : List ReportRun) :
    (∀ file ∈ resultsFiles,
        Csv.read ((filesBehind history []).content file).toList =
          (sinceReplaced (blocks file history)).flatMap (·.rows)) ∧
      (∀ row ∈ Csv.read ((filesBehind history []).content plottingFile).toList,
        row.length = 21) ∧
      (∀ row ∈ Csv.read ((filesBehind history []).content readableFile).toList,
        row.length = 9) ∧
      (∀ file ∈ jobsFiles,
        (filesBehind history []).lookup file =
          (blocks file history).getLast?.map fun block => String.ofList (Csv.write block.rows)) ∧
      ∀ (run : ReportRun) (found : MemoryFiles),
        match run.kind with
        | .jobs _ => ∀ file ∈ resultsFiles, (run.leaves found).lookup file = found.lookup file
        | .results _ => ∀ file ∈ jobsFiles, (run.leaves found).lookup file = found.lookup file := by
  have hplotting : (View.plotting, plottingFile) ∈ resultsViews := by decide
  have hreadable : (View.readable, readableFile) ∈ resultsViews := by decide
  refine ⟨?shown, ?wide, ?narrow, fun file hfile => lookup_jobs_filesBehind file hfile history,
    ?apart⟩
  case shown =>
    intro file hfile
    have hview : ∀ name ∈ resultsFiles, ∃ entry ∈ resultsViews, entry.2 = name := by decide
    rcases hview file hfile with ⟨⟨view, _⟩, hentry, rfl⟩
    exact read_content_filesBehind hentry history
  case wide =>
    intro row hrow
    rw [read_content_filesBehind hplotting] at hrow
    exact length_of_mem_sinceReplaced hplotting history row hrow
  case narrow =>
    intro row hrow
    rw [read_content_filesBehind hreadable] at hrow
    exact length_of_mem_sinceReplaced hreadable history row hrow
  case apart =>
    intro run found
    -- A file that a run wrote nothing to is as it was.
    cases hkind : run.kind with
    | jobs options =>
        exact fun file hfile =>
          ReportRun.lookup_leaves_of_none (ReportRun.block?_of_jobs hkind hfile) found
    | results options =>
        exact fun file hfile =>
          ReportRun.lookup_leaves_of_none (ReportRun.block?_of_results hkind hfile) found

/-- A server that has documents for some paths and none for the others. -/
def servedAt (documents : List (String × Json)) (request : Request) : Answer :=
  match documents.lookup request.url.pathText with
  | some document => .ok ⟨200, .ok (Utf8.encode document.toText)⟩
  | none => .ok ⟨404, .ok []⟩

namespace ReportRun

/-- A run that such a server answers, with some files refused. -/
def servedBy (documents : List (String × Json)) (kind : ReportKind) (refused : List String) :
    ReportRun :=
  ⟨Client.new "http://localhost" "k" none, ".", 1700000000, kind, servedAt documents,
    refused.contains⟩

/-- Such a run gets what is there for the path of a resource. -/
theorem document?_servedBy {documents : List (String × Json)}
    (h : ∀ entry ∈ documents, Json.Exact 3 entry.2 ∧ entry.2.isNested = true)
    {resource path : String}
    (hpath : ∃ place, (Client.new "http://localhost" "k" none).placeOf resource = .ok place ∧
      place.pathText = path)
    (kind : ReportKind) (refused : List String) :
    (servedBy documents kind refused).document? resource .all = documents.lookup path := by
  rcases hpath with ⟨place, hplace, rfl⟩
  have hcalendar : JobFilter.all.InCalendar 1700000000 := by decide
  have hanswer : ∀ request : Request,
      (servedAt documents request).document? = documents.lookup request.url.pathText := by
    intro request
    rw [servedAt]
    cases hentry : documents.lookup request.url.pathText with
    | none => rfl
    | some document =>
        rcases List.lookup_eq_some_iff.mp hentry with ⟨before, after, htable, _⟩
        have hmem : (request.url.pathText, document) ∈ documents := by
          rw [htable]
          exact List.mem_append_right before List.mem_cons_self
        have hworth : Worth resource (.ok ⟨200, .ok (Utf8.encode document.toText)⟩)
            (.ok document) := .of_toText (h _ hmem).1 (by decide) (h _ hmem).2
        exact hworth.document?_eq
  rw [document?, servedBy, Client.document?_of_place hplace hcalendar]
  -- The key and the filter stand in the query, and the server looks at the path.
  exact hanswer _

end ReportRun

/-- The outcome of a job in one row. -/
def firstOutcome : Json :=
  .array [.object [("GPIO pin", .integer 17), ("Reliability [%]", .integer 99)]]

/-- The queue entry of the job. -/
def firstEntry : Json :=
  .object [("id", .integer 1), ("name", .text "a,b")]

/-- The outcome of another job in two rows, one of which is empty. -/
def secondOutcome : Json :=
  .array [.object [("Correct messages", .integer 5)], .null, .object []]

/-- The queue entry of the other job. -/
def secondEntry : Json :=
  .object [("id", .integer 2), ("description", .text "two\nlines")]

/-- A listing with one job. -/
def oneJob : Json :=
  .array [.object [("job", .object [("id", .integer 1)])], .null]

/-- What the server of the runs below has. -/
def twoJobs : List (String × Json) :=
  [("/api/scenario/1", firstOutcome), ("/api/queue/1", firstEntry),
    ("/api/scenario/2", secondOutcome), ("/api/queue/2", secondEntry), ("/api/metric", oneJob)]

/-- Six runs of both reports. The first is replaced by the second, the fourth is
    refused one of its files, the fifth finds no outcome, and the last one is refused
    its summary. -/
def sixRuns : List ReportRun :=
  [.servedBy twoJobs (.results ⟨2, .all, true, false⟩) [],
    .servedBy twoJobs (.results ⟨1, .all, false, true⟩) [],
    .servedBy twoJobs (.jobs ⟨⟨.all, none⟩, false, true⟩) [],
    .servedBy twoJobs (.results ⟨2, .all, true, false⟩) [readableFile],
    .servedBy twoJobs (.results ⟨3, .all, false, true⟩) [],
    .servedBy twoJobs (.jobs ⟨⟨.all, none⟩, true, false⟩) [jobsSummaryFile]]

/-- What each of the six runs wrote. -/
theorem map_wrote_sixRuns :
    sixRuns.map (·.wrote) =
      [[(plottingFile, ⟨.append, View.plotting.sheet false secondOutcome secondEntry⟩),
          (readableFile, ⟨.append, View.readable.sheet false secondOutcome secondEntry⟩)],
        [(plottingFile, ⟨.truncate, View.plotting.sheet true firstOutcome firstEntry⟩),
          (readableFile, ⟨.truncate, View.readable.sheet true firstOutcome firstEntry⟩)],
        [(jobsFile, ⟨.truncate, [["id", "1"], ["id", ""]]⟩)],
        [(plottingFile, ⟨.append, View.plotting.sheet false secondOutcome secondEntry⟩)],
        [],
        [(jobsFile, ⟨.truncate, [["id", "periodicity"], ["1", "0"]]⟩)]] := by
  have hdocuments : ∀ entry ∈ twoJobs, Json.Exact 3 entry.2 ∧ entry.2.isNested = true := by
    decide
  -- The server is asked for six resources, and has all but one of them.
  have hasked := @ReportRun.document?_servedBy twoJobs hdocuments
  have hfirst := @hasked (Client.scenarioResource 1) "/api/scenario/1" ⟨_, rfl, rfl⟩
  have hfirstEntry := @hasked (Client.queueResource 1) "/api/queue/1" ⟨_, rfl, rfl⟩
  have hsecond := @hasked (Client.scenarioResource 2) "/api/scenario/2" ⟨_, rfl, rfl⟩
  have hsecondEntry := @hasked (Client.queueResource 2) "/api/queue/2" ⟨_, rfl, rfl⟩
  have hthird := @hasked (Client.scenarioResource 3) "/api/scenario/3" ⟨_, rfl, rfl⟩
  have hlisting := @hasked (MetricQuery.resource ⟨.all, none⟩) "/api/metric" ⟨_, rfl, rfl⟩
  -- What a run has to write depends on the documents that it gets of these.
  have hone := fun append headers refused => @ReportRun.due_results
    (.servedBy twoJobs (.results ⟨1, .all, append, headers⟩) refused) ⟨1, .all, append, headers⟩
    firstOutcome firstEntry rfl (hfirst _ refused) (hfirstEntry _ refused)
  have htwo := fun append headers refused => @ReportRun.due_results
    (.servedBy twoJobs (.results ⟨2, .all, append, headers⟩) refused) ⟨2, .all, append, headers⟩
    secondOutcome secondEntry rfl (hsecond _ refused) (hsecondEntry _ refused)
  have hthree := fun append headers refused => @ReportRun.due_of_no_scenario
    (.servedBy twoJobs (.results ⟨3, .all, append, headers⟩) refused) ⟨3, .all, append, headers⟩
    rfl (hthird _ refused)
  have hjobs := fun detailed idList refused => @ReportRun.due_jobs
    (.servedBy twoJobs (.jobs ⟨⟨.all, none⟩, detailed, idList⟩) refused)
    ⟨⟨.all, none⟩, detailed, idList⟩ oneJob rfl (hlisting _ refused)
  have hrefused : ∀ kind refused,
      (ReportRun.servedBy twoJobs kind refused).refused = refused.contains := fun _ _ => rfl
  simp only [sixRuns, List.map_cons, List.map_nil, ReportRun.wrote, hone, htwo, hthree, hjobs,
    hrefused]
  rfl

/-- The files behind the six runs. -/
theorem filesBehind_reads_back_sixRuns :
    Csv.read ((filesBehind sixRuns []).content plottingFile).toList =
        [["id", "name", "layout", "jamming", "len", "reliability", "sent", "received", "correct",
            "missed", "superfluous", "causality", "lat_combined", "lat_mean", "lat_median",
            "lat_90", "lat_95", "lat_99", "energy_total", "energy_setup", "description"],
          ["1", "a,b", "", "", "", "99", "", "", "", "", "", "", "", "", "", "", "", "", "", "", ""],
          ["2", "", "", "", "", "", "", "", "5", "", "", "", "", "", "", "", "", "", "", "",
            "two\nlines"],
          ["2", "", "", "", "", "", "", "", "", "", "", "", "", "", "", "", "", "", "", "",
            "two\nlines"]] ∧
      Csv.read ((filesBehind sixRuns []).content readableFile).toList =
        [["id", "name", "reliability", "latency", "energy", "jamming", "layout", "len",
            "description"],
          ["1", "a,b", "99", "", "", "", "", "", ""]] ∧
      (filesBehind sixRuns []).lookup jobsFile = some "id,periodicity\n1,0\n" ∧
      (filesBehind sixRuns []).lookup jobsSummaryFile = none := by
  -- Each block is looked up in what its run has written, which is computed once.
  have hblocks : ∀ file, blocks file sixRuns =
      (sixRuns.map (·.wrote)).filterMap (·.lookup file) := fun file => List.filterMap_map.symm
  rcases filesBehind_reads_back sixRuns with ⟨hread, _, _, hheld, _⟩
  refine ⟨?plotting, ?readable, ?jobs, ?summary⟩
  case plotting =>
    rw [hread _ (by decide), hblocks, map_wrote_sixRuns]
    decide
  case readable =>
    rw [hread _ (by decide), hblocks, map_wrote_sixRuns]
    decide
  case jobs =>
    rw [hheld _ (by decide), hblocks, map_wrote_sixRuns]
    decide
  case summary =>
    rw [hheld _ (by decide), hblocks, map_wrote_sixRuns]
    decide

end TestbedReport
