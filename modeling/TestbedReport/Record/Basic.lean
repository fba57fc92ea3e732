import TestbedReport.Scalar
import TestbedReport.Keyed

/-!
# Records

A record maps column names to cell values and remembers the order in which its
columns came. The order is the point: it is the column order of the file that
the record ends up in. Setting a column that is present keeps its place, and
removing one keeps the order of the others, so a column moves only by being
removed and set again.

No column occurs twice. That is part of the type, and the proofs that the
operations keep it stand beside them.

## Main definitions

* `Record`: Columns in order, each once, with their values.
* `Record.insert`, `Record.erase`: Sets and removes a column.
* `Record.remove`: Removes a column and tells what it held.
* `Record.get?`, `Record.contains`, `Record.columns`, `Record.size`: What a
  record holds.
* `Record.ofList`: Sets columns one after the other.
* `Record.ofJson?`: The record of a JSON object.

## Theorems

* `Record.columns_insert`: The columns after one is set.
* `Record.columns_erase`: The columns after one is removed.
-/

namespace TestbedReport

/-- Columns in order, each once, with their values. -/
@[ext]
structure Record where
  fields : List (String × Scalar)
  nodup : (fields.map (·.1)).Nodup

namespace Record

/-- The record without columns. -/
def empty : Record :=
  ⟨[], by simp⟩

instance : Inhabited Record :=
  ⟨empty⟩

/-- The columns in order. -/
def columns (r : Record) : List String :=
  r.fields.map (·.1)

/-- The number of columns. -/
def size (r : Record) : Nat :=
  r.fields.length

/-- Whether there are no columns. -/
def isEmpty (r : Record) : Bool :=
  r.fields.isEmpty

/-- The value of a column, if the record has it. -/
def get? (r : Record) (column : String) : Option Scalar :=
  r.fields.lookup column

/-- Whether the record has a column. -/
def contains (r : Record) (column : String) : Bool :=
  r.columns.contains column

/-- Sets a column: in its place if it is there, else at the end. -/
def insert (r : Record) (column : String) (value : Scalar) : Record :=
  ⟨Keyed.put column value r.fields, Keyed.nodup_put column value r.fields r.nodup⟩

/-- Removes a column. The others keep their order. -/
def erase (r : Record) (column : String) : Record :=
  ⟨r.fields.filter fun field => field.1 ≠ column,
    (List.Sublist.map _ List.filter_sublist).nodup r.nodup⟩

/-- Removes a column and tells what it held. -/
def remove (r : Record) (column : String) : Option Scalar × Record :=
  let taken := Keyed.takeOut column r.fields
  (taken.1, ⟨taken.2, (List.Sublist.map _ (Keyed.sublist_takeOut column r.fields)).nodup r.nodup⟩)

/-- Sets the columns of a list, first to last. -/
def ofList (fields : List (String × Scalar)) : Record :=
  fields.foldl (fun r field => r.insert field.1 field.2) empty

/-- The record of a JSON object, members in order. Other values have none. -/
def ofJson? : Json → Option Record
  | .object members => some (ofList (members.map fun member => (member.1, Scalar.ofJson member.2)))
  | _ => none

/-- Setting a column adds it at the end unless the record has it. -/
theorem columns_insert (r : Record) (column : String) (value : Scalar) :
    (r.insert column value).columns =
      if r.contains column then r.columns else r.columns ++ [column] :=
  Keyed.keys_put column value r.fields

/-- Removing a column leaves the others in order. -/
theorem columns_erase (r : Record) (column : String) :
    (r.erase column).columns = r.columns.filter (· ≠ column) := by
  simp only [columns, erase, List.filter_map]
  rfl

end Record

end TestbedReport
