import TestbedReport.Proofs.Csv.RoundTrip
import TestbedReport.Proofs.Record.Rebuilt

/-!
# The Fields of a View

A record goes through a view in two steps. Columns whose source has no value are
left out of the result, and later the file is written with all columns of the
view, so what was left out comes back as an empty field. The two steps together
are simpler than each of them: every column of the view shows the converted
value of its source, or nothing.

No step looks at where a column stands. That the fields of a row stand below the
right names is therefore a matter of the names being distinct, which they are in
each of the three views.

## Main definitions

* `ViewColumn.value?`: The value a column shows of a record.
* `ViewColumn.shown`: The field a column shows of a value.
* `View.line`: The fields a view shows of the values of its sources.

## Theorems

* `View.header_nodup`: The columns of a view have distinct names.
* `View.read_write`: Rows below the header of a view are read back.
* `View.fields_project`, `View.get?_project`: A record through a view has the values of
  its columns, and nothing else.
* `View.map_fieldUnder_project`: The fields below the header of a view.
* `View.tableOf_meant`: What a file of joined rows is meant to show.
-/

namespace TestbedReport

/-- The value that a column of a view shows of a record, if its source holds
    one. -/
def ViewColumn.value? (r : Record) (column : ViewColumn) : Option Scalar :=
  (r.get? column.source).bind fun value =>
    if value.isEmpty then none else some (column.conversion.apply value)

/-- The field that a column of a view shows of the value of its source. An empty
    value is not converted: it shows as nothing. -/
def ViewColumn.shown (column : ViewColumn) (value : Scalar) : String :=
  if value.isEmpty then "" else (column.conversion.apply value).render

namespace View

/-- The fields of a row in the order of the columns, from the values of their
    sources. -/
def line (view : View) (valueOf : String → Scalar) : List String :=
  view.viewColumns.map fun column => column.shown (valueOf column.source)

/-- The columns of a view have distinct names. -/
theorem header_nodup (view : View) : view.header.Nodup := by
  cases view with
  | plotting => decide
  | readable => decide
  | jobs => decide

/-- No view is without columns. -/
theorem header_ne_nil (view : View) : view.header ≠ [] := by
  cases view with
  | plotting => decide
  | readable => decide
  | jobs => decide

/-- Rows with a field for every column are read back from their writing: they are
    not without fields. -/
theorem read_write (view : View) (grid : List (List String))
    (h : ∀ row ∈ grid, row.length = view.header.length) : Csv.read (Csv.write grid) = grid := by
  rw [Csv.read_write]
  refine Csv.map_foundRow_eq_self grid fun row hrow hnil => view.header_ne_nil ?_
  have hlength := h row hrow
  rw [hnil, List.length_nil] at hlength
  exact List.length_eq_zero_iff.mp hlength.symm

/-- A row has a field for every column. -/
theorem length_line (view : View) (valueOf : String → Scalar) :
    (view.line valueOf).length = view.header.length := by
  rw [line, header, List.length_map, List.length_map]

/-- A column shows its value under its own name. -/
theorem field?_eq_map_value? (r : Record) (column : ViewColumn) :
    column.field? r = (column.value? r).map fun value => (column.name, value) := by
  unfold ViewColumn.field? ViewColumn.value?
  cases r.get? column.source with
  | none => rfl
  | some value =>
      simp only [Option.bind_some]
      by_cases h : value.isEmpty = true
      · rw [if_pos h, if_pos h]
        rfl
      · rw [if_neg h, if_neg h]
        rfl

/-- The fields of a record through a view are those of its columns: no column takes
    the place of another. -/
theorem fields_project (view : View) (r : Record) :
    (view.project r).fields = view.viewColumns.filterMap fun column =>
      (column.value? r).map fun value => (column.name, value) := by
  have hfields : view.viewColumns.filterMap (·.field? r) = view.viewColumns.filterMap fun column =>
      (column.value? r).map fun value => (column.name, value) :=
    List.filterMap_congr fun column _ => field?_eq_map_value? r column
  rw [project, Record.fields_ofList, hfields]
  refine Keyed.settle_eq_self _ (List.Sublist.nodup ?_ view.header_nodup)
  exact Keyed.sublist_keys_filterMap (·.name) (·.value? r) view.viewColumns

/-- A record through a view has under the name of each column the value that
    the column shows. -/
theorem get?_project (view : View) (r : Record) (column : ViewColumn)
    (h : column ∈ view.viewColumns) : (view.project r).get? column.name = column.value? r := by
  have hnames : (view.viewColumns.map (·.name)).Nodup := view.header_nodup
  rw [Record.get?, fields_project]
  exact Keyed.lookup_filterMap (·.name) (·.value? r) _ hnames column h

/-- A source without a value shows like a source with an empty one. -/
theorem fieldUnder_eq_shown (view : View) (r : Record) (column : ViewColumn)
    (h : column ∈ view.viewColumns) :
    (view.project r).fieldUnder column.name =
      column.shown ((r.get? column.source).getD .empty) := by
  rw [Record.fieldUnder, get?_project view r column h]
  unfold ViewColumn.value? ViewColumn.shown
  cases r.get? column.source with
  | none => rfl
  | some value =>
      simp only [Option.bind_some, Option.getD_some]
      by_cases hempty : value.isEmpty = true
      · rw [if_pos hempty, if_pos hempty]
      · rw [if_neg hempty, if_neg hempty]

/-- The fields of a record through a view, below the header of the view. -/
theorem map_fieldUnder_project (view : View) (r : Record) :
    view.header.map (view.project r).fieldUnder =
      view.line fun source => (r.get? source).getD .empty := by
  rw [header, line, List.map_map]
  exact List.map_congr_left fun column h => fieldUnder_eq_shown view r column h

/-- A file of joined rows with the columns of a view is meant to show one row for
    each of them, whether it stands alone or not. -/
theorem tableOf_meant (view : View) (headers : Bool) (combined : Combined) :
    (view.tableOf combined).meant headers (some view.header) =
      TableData.titled headers view.header
        (combined.records.map fun r => view.line fun source => (r.get? source).getD .empty) := by
  cases combined with
  | single row =>
      simp only [tableOf, TableData.meant, Combined.records, List.map_cons, List.map_nil,
        map_fieldUnder_project]
  | set rows =>
      simp only [tableOf, TableData.meant, Combined.records, List.map_map, Function.comp_def,
        map_fieldUnder_project]

end View

end TestbedReport
