import TestbedReport.Record.Basic
import TestbedReport.Rounding

/-!
# Views

A report shows a record through a view: a list of columns, each with the column
of the record that it takes its value from and a conversion. The plotting view
keeps every measurement as it is, the readable view is a summary in friendlier
units, and the jobs view summarises one entry of the job listing.

A column whose source is absent or empty is left out of the result, so the
columns of a viewed record are a part of the view's header in the same order.
The files have all columns nevertheless, because they are written with the
header of the view.

## Main definitions

* `Conversion`: What happens to a value on the way into a view.
* `ViewColumn`: A column of a view with its source.
* `View`: The three views.
* `View.header`: The column names of a view.
* `View.project`: A record through a view.
-/

namespace TestbedReport

/-- What happens to a value on the way into a view. -/
inductive Conversion where
  | copy
  | microsToMillis
  | hundredths
deriving DecidableEq

/-- The converted value. A whole number of microseconds is rounded as an
    integer, everything else as a floating-point number. -/
def Conversion.apply : Conversion → Scalar → Scalar
  | .copy, value => value
  | .microsToMillis, .int micros => .float (Rounding.millisOfMicros micros)
  | .microsToMillis, value => .float (Rounding.toHundredths (value.toFloat / 1000.0))
  | .hundredths, value => .float (Rounding.toHundredths value.toFloat)

/-- A column of a view with the column of a record that it shows. -/
structure ViewColumn where
  name : String
  source : String
  conversion : Conversion
deriving DecidableEq

/-- A column shown unchanged under its own name. -/
def ViewColumn.same (name : String) : ViewColumn :=
  ⟨name, name, .copy⟩

/-- A column shown unchanged under another name. -/
def ViewColumn.renamed (name source : String) : ViewColumn :=
  ⟨name, source, .copy⟩

/-- The views: every measurement for the plotting scripts, a summary of a
    result, and a summary of a job. -/
inductive View where
  | plotting
  | readable
  | jobs
deriving DecidableEq

namespace View

/-- The columns of a view in order. -/
def viewColumns : View → List ViewColumn
  | .plotting =>
    ["id", "name", "layout", "jamming", "len", "reliability", "sent", "received", "correct",
      "missed", "superfluous", "causality", "lat_combined", "lat_mean", "lat_median", "lat_90",
      "lat_95", "lat_99", "energy_total", "energy_setup", "description"].map .same
  | .readable =>
    [.same "id", .same "name", .same "reliability",
      ⟨"latency", "lat_combined", .microsToMillis⟩, ⟨"energy", "energy_total", .hundredths⟩,
      .same "jamming", .same "layout", .same "len", .same "description"]
  | .jobs =>
    [.same "id", .same "name", .same "description", .renamed "proto" "protocol",
      .renamed "jam" "jamming", .renamed "len" "message_length", .renamed "period" "periodicity",
      .renamed "eval" "evaluated", .renamed "fin" "finished"]

/-- The column names of a view. -/
def header (view : View) : List String :=
  view.viewColumns.map (·.name)

end View

/-- The field that a column of a view shows of a record, if its source holds a
    value. -/
def ViewColumn.field? (r : Record) (column : ViewColumn) : Option (String × Scalar) :=
  match r.get? column.source with
  | none => none
  | some value =>
    if value.isEmpty then none else some (column.name, column.conversion.apply value)

/-- A record through a view. -/
def View.project (view : View) (r : Record) : Record :=
  Record.ofList (view.viewColumns.filterMap (·.field? r))

end TestbedReport
