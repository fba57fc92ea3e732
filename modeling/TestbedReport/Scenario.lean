import TestbedReport.Record.Basic

/-!
# Scenario Rows

The server describes the outcome of a job as an array of objects, one per pair
of nodes, under long labels meant for people. A report works with short column
names. A row has all eighteen columns in any case: a label that is missing
leaves its column empty, so that rows of one document always line up.

An array may hold things that are no objects, and a document may be no array at
all, as with an error message. Such things are no rows.

## Main definitions

* `scenarioLabels`: The short names and the labels they stand for.
* `scenarioRow`: The row of an object under its short names.
* `scenarioRows`: The rows of a document.
-/

namespace TestbedReport

/-- The short column names with the labels of the server. -/
def scenarioLabels : List (String × String) :=
  [("src", "Source node(s)"),
    ("dest", "Destination node(s)"),
    ("gpio", "GPIO pin"),
    ("reliability", "Reliability [%]"),
    ("sent", "Messages sent to source node"),
    ("received", "Messages received on sink node"),
    ("correct", "Correct messages"),
    ("missed", "Missed messages"),
    ("superfluous", "Superflous messages"),
    ("causality", "Messages with causality error"),
    ("lat_combined", "Latency combined [us]"),
    ("lat_mean", "Latency mean [us]"),
    ("lat_median", "Latency median [us]"),
    ("lat_90", "Latency 90 Percentile [us]"),
    ("lat_95", "Latency 95 Percentile [us]"),
    ("lat_99", "Latency 99 Percentile [us]"),
    ("energy_total", "Total Energy [J]"),
    ("energy_setup", "Energy during setup time [J]")]

/-- A row under its short names. A missing label leaves its column empty. -/
def scenarioRow (raw : Record) : Record :=
  Record.ofList (scenarioLabels.map fun (name, label) => (name, (raw.get? label).getD .empty))

/-- The rows of a document: its objects in order, if it is an array. -/
def scenarioRows (document : Json) : List Record :=
  (document.items.filterMap Record.ofJson?).map scenarioRow

end TestbedReport
