import TestbedReport.View

/-!
# Rows Joined with Their Job

A report row is a scenario row together with the fields of the job that produced
it. Seven fields of the queue entry are set on every row, whether or not the
entry has them, so all rows keep the same columns.

When several nodes send to one sink, the server adds a last row that sums up the
others and names all destinations in one cell, joined by asterisks. That row
then stands for the whole scenario and the others are dropped.

## Main definitions

* `queueFields`: The columns taken from the queue entry.
* `joinQueue`: Scenario rows with the queue fields.
* `isAggregate`: Whether the last row sums up the others.
* `Combined`: One row that stands alone, or a set of rows.
* `combine`: Rows joined and, where possible, reduced to one.
-/

namespace TestbedReport

/-- The columns taken from the queue entry, with the names they have there. -/
def queueFields : List (String × String) :=
  [("id", "id"), ("name", "name"), ("proto", "protocol"), ("description", "description"),
    ("jamming", "jamming"), ("layout", "layout"), ("len", "message_length")]

/-- A row with the queue fields set. A field that the entry lacks is empty. -/
def joinRow (queue row : Record) : Record :=
  queueFields.foldl (fun r (column, field) => r.insert column ((queue.get? field).getD .empty)) row

/-- Scenario rows with the queue fields. -/
def joinQueue (scenario : List Record) (queue : Record) : List Record :=
  scenario.map (joinRow queue)

/-- The character between the destinations of a row that sums up others. -/
def aggregateSeparator : Char := '*'

/-- Whether the last of several rows sums up the others. -/
def isAggregate (rows : List Record) : Bool :=
  match rows.getLast? with
  | none => false
  | some last =>
    1 < rows.length && match last.get? "dest" with
      | none => false
      | some dest => dest.render.toList.contains aggregateSeparator

/-- Joined rows: one that stands alone, or a set of any size. -/
inductive Combined where
  | single (row : Record)
  | set (rows : List Record)

namespace Combined

/-- The rows, however many. -/
def records : Combined → List Record
  | .single row => [row]
  | .set rows => rows

end Combined

/-- Joined rows reduced to one if the last sums up the others or if there is
    only one. -/
def combine (scenario : List Record) (queue : Record) : Combined :=
  let rows := joinQueue scenario queue
  match rows.getLast?, rows with
  | some last, [_] => .single last
  | some last, _ => if isAggregate rows then .single last else .set rows
  | none, _ => .set rows

end TestbedReport
