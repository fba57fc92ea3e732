import TestbedReport.Proofs.Record.Rebuilt
import TestbedReport.Proofs.Report.JobList
import TestbedReport.Proofs.Report.Sheet

/-!
# The Full Listing and Its Summary

A full listing is two files about the same jobs. The list shows every field of
every job below the fields of the first one; the summary shows nine fields of
each. Both are described here by one list of fields per job, and that list by
the job alone: it is the plain record of the job object with a few changes that
can be told apart.

The normalisation prepares the members before the record is built from them. It
makes no difference to do the same to the record behind it, so repeated and
oddly ordered members need no care of their own (`fields_jobRecord`).

That the two files stay in step is not an extra fact. Their rows are the images
of the same list of jobs, whatever a job holds.

## Main definitions

* `zeroIfFalse`: A plain `false` as a number.
* `jobFields`: The fields of a job in a full listing.
* `textUnder`: The text of a field.
* `fullSheet`, `summarySheet`: What the two files show.

## Theorems

* `fields_jobRecord`: The record of a job has the fields of the job.
* `meant_fullListing`: What the list is meant to show.
* `line_jobs`: What the summary shows of a job.
* `jobsReport_outputs_full`: The two files in writing.
* `jobsReport_reads_back`: What is found in the two files.
-/

namespace TestbedReport

/-- A plain `false` as a number. Everything else stays. -/
def zeroIfFalse : Scalar → Scalar
  | .bool false => .int 0
  | value => value

/-- The fields of a job in a full listing: those of the plain record of the job
    object without the nested result, each `false` a zero, and behind them a
    periodicity of zero if the job names none. -/
def jobFields (members : List (String × Json)) : List (String × Scalar) :=
  (((Record.ofObject (.object members)).erase "result").mapValues zeroIfFalse).fields ++
    if "periodicity" ∈ members.map (·.1) then [] else [("periodicity", .int 0)]

/-- The text of the field under a column, empty if there is none. -/
def textUnder (fields : List (String × Scalar)) (column : String) : String :=
  match fields.lookup column with
  | some value => value.render
  | none => ""

/-- What the list shows of jobs: the columns of the first one, and below them the
    fields that each job has there. Without jobs there is nothing to show. -/
def fullSheet : List (List (String × Scalar)) → List (List String)
  | [] => []
  | first :: rest =>
    first.map (·.1) :: (first :: rest).map fun fields => (first.map (·.1)).map (textUnder fields)

/-- What the summary shows of jobs: nine names, and below them nine fields of each
    job. -/
def summarySheet (jobs : List (List (String × Scalar))) : List (List String) :=
  ["id", "name", "description", "proto", "jam", "len", "period", "eval", "fin"] ::
    jobs.map fun fields => ["id", "name", "description", "protocol", "jamming", "message_length",
      "periodicity", "evaluated", "finished"].map (textUnder fields)

/-- The field of a member is its cell value with a plain `false` a zero. -/
theorem jobField_eq (value : Json) : jobField value = zeroIfFalse (Scalar.ofJson value) := by
  cases value with
  | bool flag => cases flag <;> rfl
  | integer number =>
      -- An integer is a number in a cell too, even one that does not fit.
      rw [jobField, Scalar.ofJson, Scalar.ofInteger, Scalar.ofInt?]
      · split <;> rfl
      · exact fun hflag => nomatch hflag
  | _ => rfl

/-- The record of a job has the fields of the job. -/
theorem fields_jobRecord (members : List (String × Json)) :
    (jobRecord members).fields = jobFields members := by
  -- The record before the periodicity is filled in.
  let plain := members.map fun member => (member.1, Scalar.ofJson member.2)
  let kept := ((Record.ofList plain).erase "result").mapValues zeroIfFalse
  have hkept : Record.ofList ((members.filter fun member => member.1 ≠ "result").map
      fun member => (member.1, jobField member.2)) = kept := by
    simp only [kept, plain, ← Record.ofList_filter, ← Record.ofList_map, List.filter_map,
      List.map_map, Function.comp_def, jobField_eq]
  have hcolumn : "periodicity" ∈ kept.columns ↔ "periodicity" ∈ members.map (·.1) := by
    have hcolumns : kept.columns = ((Record.ofList plain).erase "result").columns := by
      simp only [kept, Record.columns, Record.mapValues, List.map_map, Function.comp_def]
    rw [hcolumns, Record.columns_erase, List.mem_filter, Record.mem_columns_ofList]
    simp [plain]
  have hrecord : jobRecord members =
      if kept.contains "periodicity" then kept else kept.insert "periodicity" (.int 0) := by
    rw [jobRecord, hkept]
  have hfields : jobFields members = kept.fields ++
      if "periodicity" ∈ members.map (·.1) then [] else [("periodicity", Scalar.int 0)] := rfl
  rw [hrecord, hfields, Record.contains]
  by_cases h : "periodicity" ∈ members.map (·.1)
  · rw [if_pos (List.contains_iff_mem.mpr (hcolumn.mpr h)), if_pos h, List.append_nil]
  · have hnew : "periodicity" ∉ kept.columns := fun hc => h (hcolumn.mp hc)
    rw [if_neg (fun hc => hnew (List.contains_iff_mem.mp hc)), if_neg h,
      Record.fields_insert kept _ _ hnew]

/-- A job has at least one field, if only the periodicity. -/
theorem jobFields_ne_nil (members : List (String × Json)) : jobFields members ≠ [] := by
  have hperiodicity := (mem_columns_jobRecord members "periodicity" (by decide)).mpr (Or.inl rfl)
  rw [Record.columns, fields_jobRecord] at hperiodicity
  intro hnil
  rw [hnil] at hperiodicity
  exact absurd hperiodicity List.not_mem_nil

/-- The field of the record of a job under a column is the text of the job there. -/
theorem fieldUnder_eq_textUnder (members : List (String × Json)) :
    (jobRecord members).fieldUnder = textUnder (jobFields members) := by
  funext column
  rw [Record.fieldUnder, Record.get?, fields_jobRecord]
  rfl

/-- The list is meant to show the jobs of the listing. -/
theorem meant_fullListing (jobs : List (List (String × Json))) :
    (TableData.rows (jobs.map jobRecord)).meant true none = fullSheet (jobs.map jobFields) := by
  cases jobs with
  | nil => rfl
  | cons first rest =>
      simp only [TableData.meant, TableData.titled, fullSheet, List.map_cons, List.map_map,
        Function.comp_def, fieldUnder_eq_textUnder, Record.columns, fields_jobRecord, if_true]

/-- A column that is copied shows the text of its value; an empty value has none. -/
theorem ViewColumn.shown_of_copy (column : ViewColumn) (value : Scalar)
    (h : column.conversion = .copy) : column.shown value = value.render := by
  rw [shown, h]
  cases value with
  | empty => rfl
  | _ => rfl

/-- The summary shows nine fields of a job, each as it is. -/
theorem line_jobs (members : List (String × Json)) :
    (View.jobs.line fun source => ((jobRecord members).get? source).getD .empty) =
      ["id", "name", "description", "protocol", "jamming", "message_length", "periodicity",
        "evaluated", "finished"].map (textUnder (jobFields members)) := by
  have hsources : ["id", "name", "description", "protocol", "jamming", "message_length",
      "periodicity", "evaluated", "finished"] = View.jobs.viewColumns.map (·.source) := by decide
  have hcopy : ∀ column ∈ View.jobs.viewColumns, column.conversion = .copy := by decide
  -- Nothing is converted, so a column shows the text of its source.
  rw [hsources, List.map_map, View.line]
  refine List.map_congr_left fun column hcolumn => ?_
  rw [ViewColumn.shown_of_copy _ _ (hcopy column hcolumn), Function.comp_apply, textUnder,
    Record.get?, fields_jobRecord]
  cases (jobFields members).lookup column.source with
  | none => rfl
  | some value => rfl

/-- The summary is meant to show the jobs of the listing. -/
theorem meant_summary (jobs : List (List (String × Json))) :
    (TableData.rows ((jobs.map jobRecord).map View.jobs.project)).meant true
        (some View.jobs.header) = summarySheet (jobs.map jobFields) := by
  have hheader : View.jobs.header =
      ["id", "name", "description", "proto", "jam", "len", "period", "eval", "fin"] := by decide
  simp only [TableData.meant, TableData.titled, summarySheet, List.map_map, Function.comp_def,
    View.map_fieldUnder_project, line_jobs, if_true]
  rw [hheader]

/-- The list is read back: no row of it is without fields. -/
theorem read_fullSheet (jobs : List (List (String × Json))) :
    Csv.read (Csv.write (fullSheet (jobs.map jobFields))) = fullSheet (jobs.map jobFields) := by
  cases jobs with
  | nil => rfl
  | cons first rest =>
      -- Every job has a periodicity, so no row is empty.
      have hcolumns : (jobFields first).map (·.1) ≠ [] := fun hnil =>
        jobFields_ne_nil first (List.map_eq_nil_iff.mp hnil)
      rw [Csv.read_write]
      refine Csv.map_foundRow_eq_self _ fun row hrow => ?_
      rw [List.map_cons, fullSheet] at hrow
      rcases List.mem_cons.mp hrow with hheader | hjob
      · rw [hheader]
        exact hcolumns
      · rcases List.mem_map.mp hjob with ⟨fields, _, hfields⟩
        rw [← hfields]
        exact fun hnil => hcolumns (List.map_eq_nil_iff.mp hnil)

/-- The summary is read back, because every row of it has nine fields. -/
theorem read_summarySheet (jobs : List (List (String × Scalar))) :
    Csv.read (Csv.write (summarySheet jobs)) = summarySheet jobs := by
  refine View.jobs.read_write _ fun row hrow => ?_
  rcases List.mem_cons.mp hrow with hheader | hjob
  · rw [hheader]
    rfl
  · rcases List.mem_map.mp hjob with ⟨fields, _, hfields⟩
    rw [← hfields]
    rfl

/-- The outputs of a full listing are its two sheets in writing. -/
theorem jobsReport_outputs_full (query : MetricQuery) (idList : Bool) (listing : Json) :
    (jobsReport ⟨query, true, idList⟩ listing).outputs =
      [⟨jobsFile, String.ofList (Csv.write (fullSheet ((jobObjects listing).map jobFields))),
          .truncate⟩,
        ⟨jobsSummaryFile,
          String.ofList (Csv.write (summarySheet ((jobObjects listing).map jobFields))),
          .truncate⟩] := by
  have houtputs : (jobsReport ⟨query, true, idList⟩ listing).outputs =
      [⟨jobsFile, (TableData.rows (jobRecords listing)).toCsv true none, .truncate⟩,
        ⟨jobsSummaryFile, (TableData.rows ((jobRecords listing).map View.jobs.project)).toCsv true
          (some View.jobs.header), .truncate⟩] := rfl
  rw [houtputs, TableData.toCsv_eq_write_meant, TableData.toCsv_eq_write_meant, jobRecords_eq,
    meant_fullListing, meant_summary]

/-- A full listing has a record for every job object, with the fields of the job
    and in its place, and two files that both replace what was there. The list
    shows every job below the columns of the first, of which there is at least
    one; the summary shows nine fields of every job. Whatever the entries hold,
    the two files have the same jobs in the same rows. -/
theorem jobsReport_reads_back (query : MetricQuery) (idList : Bool) (listing : Json) :
    (jobRecords listing).map (·.fields) = (jobObjects listing).map jobFields ∧
      (∀ members ∈ jobObjects listing, jobFields members ≠ []) ∧
      (jobsReport ⟨query, true, idList⟩ listing).records = jobRecords listing ∧
      ∃ full summary : String,
        (jobsReport ⟨query, true, idList⟩ listing).outputs =
            [⟨"dcube_jobs_list.csv", full, .truncate⟩,
              ⟨"dcube_jobs_list_readable.csv", summary, .truncate⟩] ∧
          Csv.read full.toList = fullSheet ((jobObjects listing).map jobFields) ∧
          Csv.read summary.toList = summarySheet ((jobObjects listing).map jobFields) := by
  refine ⟨?_, fun members _ => jobFields_ne_nil members, rfl, _, _,
    jobsReport_outputs_full query idList listing, ?_, ?_⟩
  · rw [jobRecords_eq, List.map_map]
    exact List.map_congr_left fun members _ => fields_jobRecord members
  · rw [String.toList_ofList, read_fullSheet]
  · rw [String.toList_ofList, read_summarySheet]

/-- A job with a flag, a comma and a result, an entry without a job, and a job with
    another column and a periodicity of its own. -/
theorem jobsReport_reads_back_two_jobs :
    let listing : Json := .array [
      .object [("job", .object [("id", .integer 1), ("jamming", .bool false),
        ("name", .text "a,b"), ("result", .object [("id", .integer 9)])])],
      .object [("task", .object [("id", .integer 3)])],
      .object [("job", .object [("periodicity", .integer 5), ("late", .text "x"),
        ("id", .integer 2)])]]
    let query : MetricQuery := ⟨.all, none⟩
    (jobRecords listing).map (·.columns) =
        [["id", "jamming", "name", "periodicity"], ["periodicity", "late", "id"]] ∧
      ∃ full summary : String,
        (jobsReport ⟨query, true, false⟩ listing).outputs =
            [⟨"dcube_jobs_list.csv", full, .truncate⟩,
              ⟨"dcube_jobs_list_readable.csv", summary, .truncate⟩] ∧
          Csv.read full.toList =
            [["id", "jamming", "name", "periodicity"], ["1", "0", "a,b", "0"],
              ["2", "", "", "5"]] ∧
          Csv.read summary.toList =
            [["id", "name", "description", "proto", "jam", "len", "period", "eval", "fin"],
              ["1", "a,b", "", "", "0", "", "0", "", ""], ["2", "", "", "", "", "", "5", "", ""]] := by
  intro listing query
  rcases jobsReport_reads_back query false listing with
    ⟨_, _, _, full, summary, houtputs, hfull, hsummary⟩
  refine ⟨by decide, full, summary, houtputs, ?_, ?_⟩
  · rw [hfull]
    decide
  · rw [hsummary]
    decide

end TestbedReport
