import TestbedReport.Csv.Writer

/-!
# Reading Comma-Separated Text

The files of a report are read by other programs, by the common rules for
comma-separated text: a field may stand in quotes, where a quote is written
twice and everything else is itself; a comma ends a field and a line feed
outside of quotes ends a row. Lines with nothing on them are passed over.

The reader here follows these rules without knowing the writer. It is the
measure for the writer: what a file is meant to show is what this reader finds
in it.

## Main definitions

* `Csv.Cursor`: Where the reading is in a row.
* `Csv.step`: One character.
* `Csv.read`: The rows of a text.
-/

namespace TestbedReport

namespace Csv

/-- Where the reading is: before a field, inside of a plain field, inside of
    quotes, or behind a quote that may have ended a field. -/
inductive Cursor where
  | fieldStart
  | plain
  | quoted
  | quoteSeen
deriving DecidableEq

/-- The state of reading: the rows and fields that are complete, and the
    characters of the field at hand, each last first. -/
structure Reading where
  rows : List (List (List Char))
  fields : List (List Char)
  field : List Char
  cursor : Cursor
deriving DecidableEq

namespace Reading

/-- Before the first character. -/
def start : Reading :=
  ⟨[], [], [], .fieldStart⟩

/-- The field at hand is complete and another follows. -/
def endField (r : Reading) : Reading :=
  ⟨r.rows, r.field.reverse :: r.fields, [], .fieldStart⟩

/-- The row at hand is complete. A line with nothing on it is no row. -/
def endRow (r : Reading) : Reading :=
  if r.cursor = .fieldStart ∧ r.fields = [] then ⟨r.rows, [], [], .fieldStart⟩
  else ⟨(r.field.reverse :: r.fields).reverse :: r.rows, [], [], .fieldStart⟩

/-- One character of the field at hand. -/
def add (r : Reading) (c : Char) (cursor : Cursor) : Reading :=
  ⟨r.rows, r.fields, c :: r.field, cursor⟩

/-- One character. -/
def step (r : Reading) (c : Char) : Reading :=
  match r.cursor with
  | .quoted => if c = '"' then { r with cursor := .quoteSeen } else r.add c .quoted
  | .fieldStart =>
    if c = '"' then { r with cursor := .quoted }
    else if c = ',' then r.endField
    else if c = '\n' then r.endRow
    else r.add c .plain
  | .plain =>
    if c = ',' then r.endField else if c = '\n' then r.endRow else r.add c .plain
  | .quoteSeen =>
    if c = '"' then r.add c .quoted
    else if c = ',' then r.endField
    else if c = '\n' then r.endRow
    else r.add c .plain

end Reading

/-- The rows of a text. A last row without a line feed counts as well. -/
def read (cs : List Char) : List (List String) :=
  let final := (cs.foldl Reading.step Reading.start).endRow
  final.rows.reverse.map fun row => row.map String.ofList

end Csv

end TestbedReport
