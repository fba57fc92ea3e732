import TestbedReport.Proofs.View.Fields
import TestbedReport.Report.Results

/-!
# The Results Report as a Sheet

Two documents come from the server, and two files are written. This module says
what stands in the files in terms of the documents alone: which objects of the
scenario are reported, where each column takes its value from, and what it shows
of it. There is no record, no join and no text in that.

The stages in between each rename and drop columns, and a cell under the wrong
name would go unnoticed. What keeps the cells in place is that every stage can be
asked for one column at a time. The rows have the label of a column under its
short name (`get?_scenarioRow`), the join sets the seven columns of the queue
entry and no other (`get?_joinRow`), and the view shows a source under its name.
Following one column through the three is following it to the one place in the
documents it comes from (`getD_get?_reportRow`).

The row that sums up the others is looked for after the join. Its destinations
are not among the columns of the queue entry, so it can as well be looked for in
the document.

## Main definitions

* `Json.cell`: The cell value under a key of an object.
* `reportedObjects`: The objects of a scenario that are reported.
* `reportedValue`: The value of a column in the row of an object.
* `View.sheet`: What a reader is meant to find of two documents.

## Theorems

* `Record.getD_get?_ofObject`: The record of an object has its cells.
* `get?_scenarioRow`: A column of a scenario row.
* `get?_joinRow`: A column of a joined row.
* `combine_records`: The rows that are left of a scenario.
* `combine_scenarioRows`: The rows that are left are those of the reported
  objects.
* `resultsReport_reads_back`: The files of a report show the sheets of its
  documents.
-/

namespace TestbedReport

/-- The cell value under a key of an object. Of repeated keys the last counts. A
    key that is missing is empty, and so is every key of what is no object. -/
def Json.cell (document : Json) (key : String) : Scalar :=
  match document with
  | .object members => ((members.reverse.lookup key).map Scalar.ofJson).getD .empty
  | _ => .empty

/-- Whether a document is an object. -/
def Json.isObject : Json → Bool
  | .object _ => true
  | _ => false

/-- The objects of a scenario, in order. What is no array has none. -/
def scenarioObjects : Json → List Json
  | .array items => items.filter Json.isObject
  | _ => []

/-- The objects of a scenario that are reported: all of them, unless the last of
    several names more than one destination and so stands for the others. -/
def reportedObjects (scenario : Json) : List Json :=
  match (scenarioObjects scenario).getLast? with
  | none => []
  | some last =>
    if 2 ≤ (scenarioObjects scenario).length ∧
        '*' ∈ (last.cell "Destination node(s)").render.toList then [last]
    else scenarioObjects scenario

/-- The value of a column in the row of an object: from the queue entry if it is
    one of its columns, else from the object, under the label of the column. -/
def reportedValue (queue object : Json) (column : String) : Scalar :=
  match queueFields.lookup column, scenarioLabels.lookup column with
  | some field, _ => queue.cell field
  | none, some label => object.cell label
  | none, none => .empty

/-- What a reader is meant to find of two documents in the file of a view. -/
def View.sheet (view : View) (headers : Bool) (scenario queue : Json) : List (List String) :=
  TableData.titled headers view.header
    ((reportedObjects scenario).map fun object => view.line (reportedValue queue object))

/-- The record of a document. What is no object has no columns. -/
def Record.ofObject (document : Json) : Record :=
  (Record.ofJson? document).getD .empty

/-- The row of an object, joined with a queue entry. -/
def reportRow (queue object : Json) : Record :=
  joinRow (.ofObject queue) (scenarioRow (.ofObject object))

/-- The record of a document has its cells. -/
theorem Record.getD_get?_ofObject (document : Json) (key : String) :
    ((Record.ofObject document).get? key).getD .empty = document.cell key := by
  cases document with
  | object members =>
      rw [Record.ofObject, Record.ofJson?, Option.getD_some, Record.get?_ofList, ← List.map_reverse,
        Keyed.lookup_map]
      rfl
  | _ => rfl

/-- A scenario row has a value under each of the short names, from the label the
    name stands for. -/
theorem get?_scenarioRow (raw : Record) (column : String) :
    (scenarioRow raw).get? column =
      (scenarioLabels.lookup column).map fun label => (raw.get? label).getD .empty :=
  Record.get?_ofList_map (fun label => (raw.get? label).getD .empty) scenarioLabels (by decide)
    column

/-- The join is setting the columns of the queue entry, one after the other. -/
theorem joinRow_eq_foldl (queue row : Record) :
    joinRow queue row =
      (queueFields.map fun entry => (entry.1, (queue.get? entry.2).getD .empty)).foldl
        (fun r field => r.insert field.1 field.2) row := by
  rw [List.foldl_map]
  rfl

/-- No column of the queue entry is set twice. -/
theorem queueFields_nodup : (queueFields.map (·.1)).Nodup := by
  decide

/-- The join sets the columns of the queue entry and leaves the others. -/
theorem get?_joinRow (queue row : Record) (column : String) :
    (joinRow queue row).get? column =
      ((queueFields.lookup column).map fun field => (queue.get? field).getD .empty).or
        (row.get? column) := by
  rw [joinRow_eq_foldl, Record.get?_foldl_insert, ← List.map_reverse,
    Keyed.lookup_map (fun field => (queue.get? field).getD .empty),
    Keyed.lookup_reverse queueFields queueFields_nodup]

/-- A column of the row of an object is where the documents have it. -/
theorem getD_get?_reportRow (queue object : Json) (column : String) :
    ((reportRow queue object).get? column).getD .empty = reportedValue queue object column := by
  rw [reportRow, get?_joinRow, get?_scenarioRow]
  unfold reportedValue
  -- The queue entry comes first, as it was set last.
  cases queueFields.lookup column with
  | some field => exact Record.getD_get?_ofObject queue field
  | none =>
      cases scenarioLabels.lookup column with
      | some label => exact Record.getD_get?_ofObject object label
      | none => rfl

/-- The destinations of the row of an object are those of the object. -/
theorem get?_reportRow_dest (queue object : Json) :
    (reportRow queue object).get? "dest" = some (object.cell "Destination node(s)") := by
  have hqueue : queueFields.lookup "dest" = none := by decide
  have hlabel : scenarioLabels.lookup "dest" = some "Destination node(s)" := by decide
  rw [reportRow, get?_joinRow, get?_scenarioRow, hqueue, hlabel, Option.map_none, Option.none_or,
    Option.map_some, Record.getD_get?_ofObject]

/-- The last of several rows sums up the others if it names more than one
    destination. -/
theorem isAggregate_iff (rows : List Record) (last : Record) (dest : Scalar)
    (hlast : rows.getLast? = some last) (hdest : last.get? "dest" = some dest) :
    isAggregate rows = true ↔ 2 ≤ rows.length ∧ '*' ∈ dest.render.toList := by
  unfold isAggregate
  simp only [hlast, hdest, Bool.and_eq_true, decide_eq_true_eq, List.contains_iff_mem,
    aggregateSeparator]
  exact Iff.rfl

/-- The rows that are left of a scenario: the last if it sums up the others,
    else all of them. -/
theorem combine_records (scenario : List Record) (queue : Record) :
    (combine scenario queue).records =
      if isAggregate (joinQueue scenario queue) then (joinQueue scenario queue).getLast?.toList
      else joinQueue scenario queue := by
  unfold combine
  generalize joinQueue scenario queue = rows
  match rows with
  | [] => rfl
  | [row] =>
      -- A single row is not several, so it cannot sum them up.
      have hsingle : isAggregate [row] = false := by
        simp only [isAggregate, List.getLast?_singleton, List.length_singleton, Nat.lt_irrefl,
          decide_false, Bool.false_and]
      rw [hsingle]
      rfl
  | first :: second :: rest =>
      have hlast : ∃ last, (first :: second :: rest).getLast? = some last :=
        ⟨_, List.getLast?_eq_some_getLast (List.cons_ne_nil first _)⟩
      rcases hlast with ⟨last, hlast⟩
      simp only [hlast]
      by_cases haggregate : isAggregate (first :: second :: rest) = true
      · rw [if_pos haggregate, if_pos haggregate]
        rfl
      · rw [if_neg haggregate, if_neg haggregate]
        rfl

/-- The items of which there are records are the objects. -/
theorem filterMap_ofJson? (items : List Json) :
    items.filterMap Record.ofJson? = (items.filter Json.isObject).map Record.ofObject := by
  induction items with
  | nil => rfl
  | cons item rest ih =>
      cases item with
      | object members =>
          have hobject : Record.ofJson? (.object members) = some (.ofObject (.object members)) :=
            rfl
          rw [List.filterMap_cons_some hobject, List.filter_cons_of_pos rfl, List.map_cons, ih]
      | _ => exact ih

/-- The joined rows of a scenario are those of its objects. -/
theorem joinQueue_scenarioRows (scenario queue : Json) :
    joinQueue (scenarioRows scenario) (.ofObject queue) =
      (scenarioObjects scenario).map (reportRow queue) := by
  cases scenario with
  | array items =>
      rw [joinQueue, scenarioRows, Json.items, filterMap_ofJson?, List.map_map, List.map_map,
        scenarioObjects]
      refine List.map_congr_left fun object _ => ?_
      rw [Function.comp_apply, Function.comp_apply, reportRow]
  | _ => rfl

/-- The rows that are left of a scenario are those of the reported objects. -/
theorem combine_scenarioRows (scenario queue : Json) :
    (combine (scenarioRows scenario) (.ofObject queue)).records =
      (reportedObjects scenario).map (reportRow queue) := by
  rw [combine_records, joinQueue_scenarioRows]
  unfold reportedObjects
  generalize scenarioObjects scenario = objects
  cases hlast : objects.getLast? with
  | none =>
      rw [List.getLast?_eq_none_iff] at hlast
      rw [hlast]
      rfl
  | some last =>
      have hrows : (objects.map (reportRow queue)).getLast? = some (reportRow queue last) := by
        rw [List.getLast?_map, hlast]
        rfl
      -- The join leaves the destinations alone, so the rows and the objects agree on
      -- whether the last one stands for the others.
      have haggregate := isAggregate_iff _ _ _ hrows (get?_reportRow_dest queue last)
      rw [List.length_map] at haggregate
      by_cases h : 2 ≤ objects.length ∧ '*' ∈ (last.cell "Destination node(s)").render.toList
      · rw [if_pos (haggregate.mpr h), hrows]
        simp only [if_pos h]
        rfl
      · rw [if_neg (fun hrow => h (haggregate.mp hrow))]
        simp only [if_neg h]

/-- The content of a file is the sheet of the documents in writing. -/
theorem resultsOutput_eq (options : ResultsOptions) (scenario queue : Json) (view : View)
    (file : String) :
    resultsOutput options (combine (scenarioRows scenario) (.ofObject queue)) view file =
      ⟨file, String.ofList (Csv.write (view.sheet options.headers scenario queue)),
        options.mode⟩ := by
  have hvalues : ∀ object : Json,
      (view.line fun source => ((reportRow queue object).get? source).getD .empty) =
        view.line (reportedValue queue object) := by
    intro object
    exact congrArg view.line (funext fun source => getD_get?_reportRow queue object source)
  rw [resultsOutput, TableData.toCsv_eq_write_meant, View.tableOf_meant, combine_scenarioRows,
    List.map_map, View.sheet]
  simp only [Function.comp_def, hvalues]

/-- The outputs of a report are the sheets of its documents in writing. -/
theorem resultsReport_outputs (options : ResultsOptions) (scenario queue : Json) :
    (resultsReport options (.ofDocuments scenario queue)).outputs =
      resultsViews.map fun (view, file) =>
        ⟨file, String.ofList (Csv.write (view.sheet options.headers scenario queue)),
          options.mode⟩ := by
  rw [resultsReport, ScenarioData.ofDocuments]
  exact List.map_congr_left fun entry _ => resultsOutput_eq options scenario queue entry.1 entry.2

/-- Every row of a sheet has a field for each column of the view. -/
theorem length_of_mem_sheet (view : View) (headers : Bool) (scenario queue : Json)
    (row : List String) (h : row ∈ view.sheet headers scenario queue) :
    row.length = view.header.length := by
  have hrows : ∀ row ∈ (reportedObjects scenario).map fun object =>
      view.line (reportedValue queue object), row.length = view.header.length := by
    intro row hrow
    rcases List.mem_map.mp hrow with ⟨object, _, rfl⟩
    exact View.length_line view _
  unfold View.sheet TableData.titled at h
  -- With headers there is one row more, which is the header itself.
  split at h
  · rcases List.mem_cons.mp h with hheader | hrow
    · rw [hheader]
    · exact hrows row hrow
  · exact hrows row h

/-- The files of a report show the sheets of its documents, each in full: no
    cell is lost, moved to another row or put under another column, whatever the
    documents hold. -/
theorem resultsReport_reads_back (options : ResultsOptions) (scenario queue : Json) :
    ∃ plotting readable : String,
      (resultsReport options (.ofDocuments scenario queue)).outputs =
          [⟨plottingFile, plotting, options.mode⟩, ⟨readableFile, readable, options.mode⟩] ∧
        Csv.read plotting.toList = View.plotting.sheet options.headers scenario queue ∧
        Csv.read readable.toList = View.readable.sheet options.headers scenario queue ∧
        (∀ row ∈ Csv.read plotting.toList, row.length = 21) ∧
        (∀ row ∈ Csv.read readable.toList, row.length = 9) := by
  have hfound : ∀ view : View,
      Csv.read (String.ofList (Csv.write (view.sheet options.headers scenario queue))).toList =
        view.sheet options.headers scenario queue := by
    intro view
    rw [String.toList_ofList]
    exact view.read_write _ (length_of_mem_sheet view options.headers scenario queue)
  refine ⟨_, _, resultsReport_outputs options scenario queue, hfound .plotting, hfound .readable,
    ?_, ?_⟩
  · -- The numbers of columns are those of the two headers.
    intro row hrow
    rw [hfound] at hrow
    exact length_of_mem_sheet .plotting options.headers scenario queue row hrow
  · intro row hrow
    rw [hfound] at hrow
    exact length_of_mem_sheet .readable options.headers scenario queue row hrow

/-- A scenario with two objects and something else between them, one of which repeats a
    label, and the queue entry of its job with a comma and two lines. -/
theorem resultsReport_reads_back_two_rows :
    let scenario : Json := .array [
      .object [("Source node(s)", .text "200"), ("Messages sent to source node", .integer 12),
        ("Messages sent to source node", .integer 11)],
      .null,
      .object [("Latency mean [us]", .text "1\"2"), ("Correct messages", .bool true)]]
    let queue : Json := .object [("id", .integer 7), ("name", .text "x,y"),
      ("description", .text "two\nlines"), ("message_length", .integer 64)]
    ∃ plotting readable : String,
      (resultsReport ⟨7, .all, true, true⟩ (.ofDocuments scenario queue)).outputs =
          [⟨"dcube_results_plotting.csv", plotting, .append⟩,
            ⟨"dcube_results_readable.csv", readable, .append⟩] ∧
        Csv.read plotting.toList =
          [["id", "name", "layout", "jamming", "len", "reliability", "sent", "received", "correct",
              "missed", "superfluous", "causality", "lat_combined", "lat_mean", "lat_median",
              "lat_90", "lat_95", "lat_99", "energy_total", "energy_setup", "description"],
            ["7", "x,y", "", "", "64", "", "11", "", "", "", "", "", "", "", "", "", "", "", "",
              "", "two\nlines"],
            ["7", "x,y", "", "", "64", "", "", "", "1", "", "", "", "", "1\"2", "", "", "", "",
              "", "", "two\nlines"]] ∧
        Csv.read readable.toList =
          [["id", "name", "reliability", "latency", "energy", "jamming", "layout", "len",
              "description"],
            ["7", "x,y", "", "", "", "", "", "64", "two\nlines"],
            ["7", "x,y", "", "", "", "", "", "64", "two\nlines"]] := by
  intro scenario queue
  rcases resultsReport_reads_back ⟨7, .all, true, true⟩ scenario queue with
    ⟨plotting, readable, houtputs, hplotting, hreadable, _⟩
  refine ⟨plotting, readable, houtputs, ?_, ?_⟩
  · rw [hplotting]
    decide
  · rw [hreadable]
    decide

end TestbedReport
