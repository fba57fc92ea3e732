import TestbedReport.Proofs.Csv.Reading

/-!
# What a File Shows Is What Is Found in It

A file is read by others, and what they find must be what it was meant to show.
What that is can be said without a word about text: the names of the columns, if
they are asked for, and below them one row per record with the field of each
column.

Two files fall out of the rule. Rows of records without any record and without
given columns have no columns that could be named, so nothing is shown, not even
a header. And a record shown under no columns at all is found as a row with one
empty field, because a line has at least one.

## Main definitions

* `Record.fieldUnder`: The field of a record under a column.
* `TableData.meant`: What a file is meant to show.

## Theorems

* `grid?_getD_eq_meant`: The cells of a file are what it is meant to show.
* `toCsv_reads_back`: What is found in a file is what it is meant to show.
-/

namespace TestbedReport

/-- The field that a record has under a column. A column that the record lacks
    is empty. -/
def Record.fieldUnder (r : Record) (column : String) : String :=
  match r.get? column with
  | some value => value.render
  | none => ""

namespace TableData

/-- Rows below the names of their columns, if those are asked for. -/
def titled (headers : Bool) (columns : List String) (rows : List (List String)) :
    List (List String) :=
  if headers then columns :: rows else rows

/-- What a file is meant to show. The columns are the given ones, or those of
    the first record; pairs always have their own two. -/
def meant (headers : Bool) (given : Option (List String)) : TableData → List (List String)
  | .rows records =>
    match given, records with
    | none, [] => []
    | none, first :: rest =>
      titled headers first.columns
        ((first :: rest).map fun r => first.columns.map r.fieldUnder)
    | some columns, records =>
      titled headers columns (records.map fun r => columns.map r.fieldUnder)
  | .single record =>
    match given with
    | none => titled headers record.columns [record.columns.map record.fieldUnder]
    | some columns => titled headers columns [columns.map record.fieldUnder]
  | .idPairs valueColumn values =>
    titled headers ["id", valueColumn] (values.map fun value => ["id", value.render])

/-- The cells of a record are its fields under the columns. -/
theorem cells_eq_map_fieldUnder (r : Record) (columns : List String) :
    r.cells columns = columns.map r.fieldUnder := by
  unfold Record.cells
  refine List.map_congr_left fun column _ => ?_
  unfold Record.fieldUnder
  cases r.get? column with
  | none => rfl
  | some value => rfl

/-- The cells of a file are what it is meant to show, where no cells at all
    stand for nothing to show. -/
theorem grid?_getD_eq_meant (headers : Bool) (given : Option (List String)) (data : TableData) :
    (data.grid? headers given).getD [] = data.meant headers given := by
  -- Without a given header it is that of the first row, if there is one.
  cases data with
  | rows records =>
      cases given with
      | none =>
          cases records with
          | nil => rfl
          | cons first rest =>
              simp only [meant, titled, ← cells_eq_map_fieldUnder]
              rfl
      | some columns =>
          simp only [meant, titled, ← cells_eq_map_fieldUnder]
          rfl
  | single record =>
      cases given with
      | none =>
          simp only [meant, titled, ← cells_eq_map_fieldUnder]
          rfl
      | some columns =>
          simp only [meant, titled, ← cells_eq_map_fieldUnder]
          rfl
  | idPairs valueColumn values => rfl

/-- The content of a file is what it is meant to show in writing. -/
theorem toCsv_eq_write_meant (headers : Bool) (given : Option (List String)) (data : TableData) :
    data.toCsv headers given = String.ofList (Csv.write (data.meant headers given)) := by
  rw [← grid?_getD_eq_meant]
  unfold toCsv
  cases data.grid? headers given with
  | none => rfl
  | some grid => rfl

/-- What is found in a file is what it is meant to show, for any records, column
    names and values. The content has no characters only if there is nothing to
    show, and otherwise ends its last line. -/
theorem toCsv_reads_back (headers : Bool) (given : Option (List String)) (data : TableData) :
    Csv.read (data.toCsv headers given).toList =
        (data.meant headers given).map (Csv.foundRow "") ∧
      (data.toCsv headers given = "" ↔ data.meant headers given = []) ∧
      (data.toCsv headers given = "" ∨
        (data.toCsv headers given).toList.getLast? = some '\n') := by
  have htext : (data.toCsv headers given).toList = Csv.write (data.meant headers given) := by
    rw [toCsv_eq_write_meant, String.toList_ofList]
  have hempty : data.toCsv headers given = "" ↔ data.meant headers given = [] := by
    rw [← Csv.write_eq_nil_iff, ← htext, String.toList_eq_nil_iff]
  refine ⟨?_, hempty, ?_⟩
  · -- Of a row without fields an empty one is found, which `foundRow` accounts for.
    rw [htext, Csv.read_write]
  · by_cases hmeant : data.meant headers given = []
    · exact Or.inl (hempty.mpr hmeant)
    · right
      rw [htext]
      exact Csv.write_getLast? _ hmeant

/-- Two records with different columns and marks in their texts. -/
theorem toCsv_reads_back_marked :
    let data : TableData := .rows [.ofList [("id", .int 1), ("note", .text "a,\"b\"\nc")],
      .ofList [("late", .text "x"), ("id", .bool true)]]
    data.toCsv true none = "id,note\n1,\"a,\"\"b\"\"\nc\"\n1,\n" ∧
      Csv.read (data.toCsv true none).toList = [["id", "note"], ["1", "a,\"b\"\nc"], ["1", ""]] := by
  intro data
  refine ⟨by decide, ?_⟩
  rw [(toCsv_reads_back true none data).1]
  decide

end TableData

end TestbedReport
