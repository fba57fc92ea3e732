import TestbedReport.Proofs.View.Fields

/-!
# What a View Depends On

A record through a view is a record again, so it can go through another view, as
when the summary of a result is made from the data that was kept for plotting. It
is then the summary of the result itself.

Two facts are behind that. A view takes nothing from a record but the values under
its sources, where a source that is absent counts as an empty one (`project_congr`).
And under a column that a view shows unchanged under its own name, the viewed record
has the value of the record, or nothing in the place of an empty one
(`getD_get?_project`). So a view loses nothing that another one asks for if it keeps
all of its sources, and the plotting view keeps those of the readable view and its
own. It would not if it showed one of them converted or under another name.

## Main definitions

* `View.Agree`: Two records hold the same under the sources of a view.
* `View.Keeps`: A view shows all sources of another one unchanged.

## Theorems

* `View.sublist_columns_project`: The columns of a record through a view are a part of
  its header, in order.
* `View.project_congr`: Records that agree on the sources look the same.
* `View.project_project`: A view through one that keeps its sources.
* `View.project_consistent`: Both result views from the plotting data, and what any view
  depends on.
-/

namespace TestbedReport

/-- A column shows what is under its source, where an absent value is an empty one. -/
theorem ViewColumn.field?_eq (r : Record) (column : ViewColumn) :
    column.field? r =
      if ((r.get? column.source).getD .empty).isEmpty then none
      else some (column.name, column.conversion.apply ((r.get? column.source).getD .empty)) := by
  unfold ViewColumn.field?
  cases r.get? column.source with
  | none => rfl
  | some value => rfl

namespace View

/-- Two records hold the same values under the sources of a view. A column that is
    absent counts as an empty one. -/
def Agree (view : View) (r s : Record) : Prop :=
  ∀ column ∈ view.viewColumns,
    (r.get? column.source).getD .empty = (s.get? column.source).getD .empty

/-- A view shows all sources of another one unchanged and under their own names. -/
def Keeps (kept view : View) : Prop :=
  ∀ column ∈ view.viewColumns, ViewColumn.same column.source ∈ kept.viewColumns

/-- The columns of a record through a view are a part of its header, in order. -/
theorem sublist_columns_project (view : View) (r : Record) :
    (view.project r).columns.Sublist view.header := by
  rw [Record.columns, fields_project]
  exact Keyed.sublist_keys_filterMap (·.name) (·.value? r) view.viewColumns

/-- Records that agree on the sources of a view look the same through it, whatever the
    order of their columns is and whatever else they hold. -/
theorem project_congr {view : View} {r s : Record} (h : view.Agree r s) :
    view.project r = view.project s := by
  have hfields : ∀ column ∈ view.viewColumns, column.field? r = column.field? s := by
    intro column hcolumn
    rw [ViewColumn.field?_eq, ViewColumn.field?_eq, h column hcolumn]
  rw [project, project, List.filterMap_congr hfields]

/-- Under a column that a view shows unchanged there is the value of the record.
    Leaving out what is empty makes no difference where absent counts as empty. -/
theorem getD_get?_project (view : View) (r : Record) {source : String}
    (h : ViewColumn.same source ∈ view.viewColumns) :
    ((view.project r).get? source).getD .empty = (r.get? source).getD .empty := by
  have hvalue : (view.project r).get? source = (ViewColumn.same source).value? r :=
    view.get?_project r (.same source) h
  have hsame : (ViewColumn.same source).value? r =
      (r.get? source).bind fun value => if value.isEmpty then none else some value := rfl
  rw [hvalue, hsame]
  cases r.get? source with
  | none => rfl
  | some value =>
      -- The only value that is left out is the one that stands for absent ones.
      cases value with
      | empty => rfl
      | bool => rfl
      | int => rfl
      | float => rfl
      | text => rfl

/-- What a view shows can be taken from another view that keeps its sources. -/
theorem project_project {kept view : View} (h : kept.Keeps view) (r : Record) :
    view.project (kept.project r) = view.project r := by
  refine project_congr fun column hcolumn => ?_
  exact kept.getD_get?_project r (h column hcolumn)

/-- The plotting view keeps the sources of both result views. -/
theorem keeps_plotting {view : View} (h : view ≠ .jobs) : View.plotting.Keeps view := by
  unfold Keeps
  cases view with
  | plotting => decide
  | readable => decide
  | jobs => exact absurd rfl h

/-- **The views of a result are consistent.** The readable summary of a result and its
    plotting data can both be taken from the plotting data again, with the same columns
    in the same order. Through any view, two records look the same if they agree on its
    sources, and what they show are columns of its header in the order of the header. -/
theorem project_consistent :
    (∀ r : Record, View.readable.project (View.plotting.project r) = View.readable.project r ∧
      View.plotting.project (View.plotting.project r) = View.plotting.project r) ∧
    (∀ (view : View) (r s : Record), view.Agree r s → view.project r = view.project s) ∧
    ∀ (view : View) (r : Record), (view.project r).columns.Sublist view.header := by
  refine ⟨fun r => ⟨?_, ?_⟩, fun _ _ _ hagree => project_congr hagree, sublist_columns_project⟩
  · exact project_project (keeps_plotting (by decide)) r
  · exact project_project (keeps_plotting (by decide)) r

/-- The columns may come in another order, an empty one may be absent, and there may be
    columns that the view does not show. -/
theorem project_consistent_reordered :
    let reordered : Record := .ofList [("gpio", .int 17), ("name", .empty),
      ("lat_combined", .int 1005), ("id", .int 4711)]
    let ordered : Record := .ofList [("id", .int 4711), ("lat_combined", .int 1005)]
    View.readable.project reordered = View.readable.project ordered ∧
      (View.readable.project ordered).columns = ["id", "latency"] ∧
      (View.plotting.project reordered).fields =
        [("id", .int 4711), ("lat_combined", .int 1005)] := by
  intro reordered ordered
  refine ⟨project_consistent.2.1 .readable _ _ fun column hcolumn => ?_, ?_, ?_⟩
  · simp only [viewColumns, List.mem_cons, List.not_mem_nil, or_false] at hcolumn
    rcases hcolumn with rfl | rfl | rfl | rfl | rfl | rfl | rfl | rfl | rfl <;> rfl
  · rfl
  · rfl

end View

end TestbedReport
