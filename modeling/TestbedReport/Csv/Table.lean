import TestbedReport.Combined

/-!
# What a File Shows

Before a report becomes text it is one of three things: rows of records, a
single record, or a list of ids in pairs. Each of them fills a grid of cells,
and the grid is what a reader of the file should find again.

The columns of the grid are given, or else taken from the first record. A record
fills the columns it has and leaves the others empty. Rows without any record to
take columns from, and without given columns, fill no grid at all.

## Main definitions

* `TableData`: What a file shows.
* `TableData.columns?`: The columns of its grid.
* `TableData.grid?`: The cells, row by row.
* `View.tableOf`: Joined rows through a view.
-/

namespace TestbedReport

/-- What a file shows: rows with common columns, a single record, or values each
    in a pair with the word `id`. -/
inductive TableData where
  | rows (records : List Record)
  | single (record : Record)
  | idPairs (valueColumn : String) (values : List Scalar)

/-- The cells of a record in the order of the columns. -/
def Record.cells (r : Record) (columns : List String) : List String :=
  columns.map fun column => ((r.get? column).map Scalar.render).getD ""

namespace TableData

/-- The number of rows without a header. -/
def rowCount : TableData → Nat
  | .rows records => records.length
  | .single _ => 1
  | .idPairs _ values => values.length

/-- The columns of the grid. Given columns count for records only. -/
def columns? (given : Option (List String)) : TableData → Option (List String)
  | .rows records => given <|> records.head?.map Record.columns
  | .single record => some (given.getD record.columns)
  | .idPairs valueColumn _ => some ["id", valueColumn]

/-- The rows below the header. -/
def body (columns : List String) : TableData → List (List String)
  | .rows records => records.map (·.cells columns)
  | .single record => [record.cells columns]
  | .idPairs _ values => values.map fun value => ["id", value.render]

/-- The cells row by row, below a header if one is asked for. -/
def grid? (headers : Bool) (given : Option (List String)) (data : TableData) :
    Option (List (List String)) :=
  (data.columns? given).map fun columns =>
    if headers then columns :: data.body columns else data.body columns

end TableData

/-- Joined rows through a view. A row that stands alone stays alone. -/
def View.tableOf (view : View) : Combined → TableData
  | .single row => .single (view.project row)
  | .set rows => .rows (rows.map view.project)

end TestbedReport
