import TestbedReport.Proofs.Report.History
import Mathlib.Data.List.TakeWhile

/-!
# Two Reports as One

A file that is extended run by run is meant to look like the file of one big
report: one header, and below it the rows of all runs. For that a run must be able
to write its rows without knowing what is above them, and nothing in a file may
depend on how its rows were cut into reports.

Given columns make this so. The columns do not come from the first row, the titles
are a row of their own, and a row is written by itself, with its line feed. So the
text of two sets of rows is the text of one set with the titles and of the other
without (`toCsv_rows_append`), also where a set is empty or a row has no fields.

The views give their columns to every report, and a run reports its rows whatever
the file holds. What the law says of texts therefore holds of the files behind two
runs.

## Main definitions

* `Combined.above`: The rows of two reports as those of one.
* `ReportRun.Reports`: What a run of the results report has to show.

## Theorems

* `TableData.toCsv_rows_append`: The text of two sets of rows.
* `resultsOutput_above`: A report of the rows of two.
* `ReportRun.Reports.lookup_leaves`: The file of a view behind a run.
* `headless_append_eq_one_report`: Extending a file makes it one report.
-/

namespace TestbedReport

/-- The rows of two reports as those of one. -/
def Combined.above (upper lower : Combined) : Combined :=
  .set (upper.records ++ lower.records)

namespace TableData

/-- The text of rows under given columns. -/
theorem toCsv_rows (headers : Bool) (columns : List String) (records : List Record) :
    (rows records).toCsv headers (some columns) =
      String.ofList (Csv.write (titled headers columns (records.map (·.cells columns)))) :=
  rfl

/-- Titles stand above the first rows only. -/
theorem titled_append (headers : Bool) (columns : List String) (upper lower : List (List String)) :
    titled headers columns (upper ++ lower) = titled headers columns upper ++ lower := by
  unfold titled
  cases headers with
  | true => rfl
  | false => rfl

/-- The text of two sets of rows under given columns is that of the first, with the
    titles if they are asked for, and that of the second without. -/
theorem toCsv_rows_append (headers : Bool) (columns : List String) (upper lower : List Record) :
    (rows (upper ++ lower)).toCsv headers (some columns) =
      (rows upper).toCsv headers (some columns) ++ (rows lower).toCsv false (some columns) := by
  have hlower : titled false columns (lower.map (·.cells columns)) =
      lower.map (·.cells columns) := rfl
  rw [toCsv_rows, toCsv_rows, toCsv_rows, List.map_append, titled_append, Csv.write_append,
    String.ofList_append, hlower]

end TableData

/-- A row that stands alone is written as a set of one row. -/
theorem View.toCsv_tableOf (view : View) (headers : Bool) (columns : List String)
    (combined : Combined) :
    (view.tableOf combined).toCsv headers (some columns) =
      (TableData.rows (combined.records.map view.project)).toCsv headers (some columns) := by
  cases combined with
  | single row => rfl
  | set rows => rfl

/-- A report of the rows of two is the first one with the rows of the second below,
    as a report without titles has them. -/
theorem resultsOutput_above (options below : ResultsOptions) (hbelow : below.headers = false)
    (upper lower : Combined) (view : View) (file : String) :
    resultsOutput options (upper.above lower) view file =
      ⟨file, (resultsOutput options upper view file).content ++
        (resultsOutput below lower view file).content, options.mode⟩ := by
  have hrows : ((upper.above lower).records.map view.project) =
      upper.records.map view.project ++ lower.records.map view.project := List.map_append
  simp only [resultsOutput, hbelow, View.toCsv_tableOf, hrows, TableData.toCsv_rows_append]

namespace ReportRun

/-- A run of the results report has both documents, and these are its joined rows. -/
def Reports (run : ReportRun) (options : ResultsOptions) (combined : Combined) : Prop :=
  run.kind = .results options ∧ ∃ scenario queue,
    run.scenario? options = some scenario ∧ run.queue? options = some queue ∧
      combine (scenarioRows scenario) (.ofObject queue) = combined

/-- What a run is due to write to the file of a view is its rows as an output. -/
theorem Reports.output_eq {run : ReportRun} {options : ResultsOptions} {combined : Combined}
    (hrun : run.Reports options combined) {view : View} {file : String}
    (hview : (view, file) ∈ resultsViews) {block : Block} (hblock : run.block? file = some block) :
    block.output file = resultsOutput options combined view file := by
  rcases hrun with ⟨hkind, scenario, queue, hscenario, hqueue, rfl⟩
  have hdue := mem_due_of_block? hblock
  simp only [due_results hkind hscenario hqueue, List.mem_cons, List.not_mem_nil, or_false,
    Prod.mk.injEq] at hdue
  rw [resultsOutput_eq]
  -- The two files are told apart by their names, and each of them has its view.
  rcases mem_resultsViews hview with ⟨rfl, rfl⟩ | ⟨rfl, rfl⟩
  · rcases hdue with ⟨_, rfl⟩ | ⟨hname, _⟩
    · rfl
    · exact absurd hname (by decide)
  · rcases hdue with ⟨hname, _⟩ | ⟨_, rfl⟩
    · exact absurd hname (by decide)
    · rfl

/-- A run that could write to the file of a view leaves it with its rows. -/
theorem Reports.lookup_leaves {run : ReportRun} {options : ResultsOptions} {combined : Combined}
    (hrun : run.Reports options combined) {view : View} {file : String}
    (hview : (view, file) ∈ resultsViews) {found : MemoryFiles}
    (hstored : file ∈ (run.stored found).map (·.file)) :
    (run.leaves found).lookup file =
      some ((resultsOutput options combined view file).appliedTo (found.content file)) := by
  rcases Option.isSome_iff_exists.mp ((isSome_block?_iff run found file).mpr hstored) with
    ⟨block, hblock⟩
  rw [ReportRun.lookup_leaves, run.filter_stored, hblock, Option.map_some,
    hrun.output_eq hview hblock]
  rfl

/-- A run to which no file is refused can write to the file of every view. -/
theorem Reports.mem_stored {run : ReportRun} {options : ResultsOptions} {combined : Combined}
    (hrun : run.Reports options combined) (hnone : ∀ file, run.refused file = false)
    (found : MemoryFiles) :
    ∀ entry ∈ resultsViews, entry.2 ∈ (run.stored found).map (·.file) := by
  rcases hrun with ⟨hkind, scenario, queue, hscenario, hqueue, _⟩
  -- What is written is what comes before the first refusal, and there is none.
  have hall : run.wrote = run.due :=
    List.takeWhile_eq_self_iff.mpr fun entry _ => by rw [hnone, Bool.not_false]
  have hfiles : (run.stored found).map (·.file) = resultsViews.map (·.2) := by
    rw [stored_eq, hall, due_results hkind hscenario hqueue]
    rfl
  intro entry hentry
  rw [hfiles]
  exact List.mem_map_of_mem hentry

end ReportRun

/-- **Extending a file without titles makes it one report.** Under given columns the
    text of two sets of rows is that of the first and below it that of the second
    without titles. So a run behind another leaves each file that both could write as
    a single report of the rows of both would leave it, in the mode and with the
    titles of the first. -/
theorem headless_append_eq_one_report :
    (∀ (headers : Bool) (columns : List String) (upper lower : List Record),
      (TableData.rows (upper ++ lower)).toCsv headers (some columns) =
        (TableData.rows upper).toCsv headers (some columns) ++
          (TableData.rows lower).toCsv false (some columns)) ∧
    ∀ (first second : ReportRun) (options below : ResultsOptions) (upper lower : Combined)
      (found : MemoryFiles),
      first.Reports options upper → second.Reports below lower →
      below.append = true → below.headers = false →
      ∀ entry ∈ resultsViews,
        entry.2 ∈ (first.stored found).map (·.file) →
        entry.2 ∈ (second.stored (first.leaves found)).map (·.file) →
        (second.leaves (first.leaves found)).lookup entry.2 =
          some ((resultsOutput options (upper.above lower) entry.1 entry.2).appliedTo
            (found.content entry.2)) := by
  refine ⟨TableData.toCsv_rows_append, ?_⟩
  intro first second options below upper lower found hfirst hsecond happend hbelow entry hentry
    hupper hlower
  have hheld : (first.leaves found).content entry.2 =
      (resultsOutput options upper entry.1 entry.2).appliedTo (found.content entry.2) := by
    rw [MemoryFiles.content, hfirst.lookup_leaves hentry hupper,
      Option.getD_some]
  have hmode : below.mode = .append := by
    rw [ResultsOptions.mode, if_pos happend]
  rw [hsecond.lookup_leaves hentry hlower, hheld,
    resultsOutput_above options below hbelow]
  -- The second output goes behind what the first one left, whatever that is.
  refine congrArg some ?_
  unfold Output.appliedTo
  simp only [resultsOutput, hmode]
  cases options.mode with
  | truncate => rfl
  | append => exact String.append_assoc ..

/-- A run whose server has one answer to everything and whose files are never refused. -/
def ReportRun.answeredWith (answer : String) (options : ResultsOptions) : ReportRun :=
  ⟨Client.new "http://localhost" "k" none, ".", 0, .results options,
    fun _ => .ok ⟨200, .ok (Utf8.encode answer)⟩, fun _ => false⟩

/-- A job with one row and behind it a job with two, which both files can be written
    for. -/
theorem headless_append_eq_one_report_two_jobs :
    let first := ReportRun.answeredWith "[\x7b\x7d]" ⟨1, .all, false, true⟩
    let second := ReportRun.answeredWith "[\x7b\x7d,\x7b\x7d]" ⟨2, .all, true, false⟩
    let one : Json := .array [.object []]
    let two : Json := .array [.object [], .object []]
    let upper := combine (scenarioRows one) (.ofObject one)
    let lower := combine (scenarioRows two) (.ofObject two)
    first.Reports ⟨1, .all, false, true⟩ upper ∧ second.Reports ⟨2, .all, true, false⟩ lower ∧
      (∀ entry ∈ resultsViews, entry.2 ∈ (first.stored []).map (·.file) ∧
        entry.2 ∈ (second.stored (first.leaves [])).map (·.file)) ∧
      ∀ entry ∈ resultsViews, (second.leaves (first.leaves [])).lookup entry.2 =
        some (resultsOutput ⟨1, .all, false, true⟩ (upper.above lower) entry.1 entry.2).content := by
  have hfirst : (ReportRun.answeredWith "[\x7b\x7d]" ⟨1, .all, false, true⟩).Reports
      ⟨1, .all, false, true⟩ _ := ⟨rfl, .array [.object []], .array [.object []], rfl, rfl, rfl⟩
  have hsecond : (ReportRun.answeredWith "[\x7b\x7d,\x7b\x7d]" ⟨2, .all, true, false⟩).Reports
      ⟨2, .all, true, false⟩ _ := ⟨rfl, .array [.object [], .object []],
        .array [.object [], .object []], rfl, rfl, rfl⟩
  intro first second one two upper lower
  have hboth : ∀ entry ∈ resultsViews, entry.2 ∈ (first.stored []).map (·.file) ∧
      entry.2 ∈ (second.stored (first.leaves [])).map (·.file) := fun entry hentry =>
    ⟨hfirst.mem_stored (fun _ => rfl) _ entry hentry,
      hsecond.mem_stored (fun _ => rfl) _ entry hentry⟩
  refine ⟨hfirst, hsecond, hboth, fun entry hentry => ?_⟩
  exact headless_append_eq_one_report.2 first second _ _ _ _ [] hfirst hsecond rfl rfl entry hentry
    (hboth entry hentry).1 (hboth entry hentry).2

end TestbedReport
