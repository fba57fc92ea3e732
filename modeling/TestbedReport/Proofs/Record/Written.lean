import TestbedReport.Proofs.Json.Members
import TestbedReport.Proofs.Json.Reading
import TestbedReport.Record.Written

/-!
# Records Read Back

A cell is written without a word on what it is: a text in quotes, an integer by its
digits, a truth value and an empty cell by their words. What it is has to be told from
how it looks. The looks differ, since only a text has quotes, so the text `1` is not
taken for the integer nor the text `null` for an empty cell.

The columns are written in order and each once. The reader looks for them below the one
member that holds them, which it finds by its name, and reads every cell by itself. So
it does not help that a record's text is read as a JSON value: that has forgotten how
often a name was written. The statements below are on the document.

A number that is no integer is the exception. Its digits are rounded when they are
read, and the result can differ in the last place.

## Main definitions

* `Scalar.isFloat`: The cells that need not read back.

## Theorems

* `Scalar.exact_toJson`: Any other cell is exact in writing.
* `Record.fieldsOf?_of_values`: Columns are read as they were written.
* `Record.read?_document`: A written record as a document.
* `Record.read?_toText`: A record is read back from its text.
-/

namespace TestbedReport

open Json

/-- Whether a cell holds a floating-point number. -/
def Scalar.isFloat : Scalar → Bool
  | .float _ => true
  | _ => false

/-- An integer of 64 bits is a cell as it is. -/
theorem Scalar.ofInteger_toInt (value : Int64) : ofInteger value.toInt = .int value := by
  have hlow := Int64.le_toInt value
  have hhigh := Int64.toInt_lt value
  rw [ofInteger, ofInt?, if_pos (by omega), Option.getD_some, Int64.ofInt_toInt]

/-- The value that a cell is written as is that of no other cell. -/
theorem Scalar.ofPlainJson?_toJson (s : Scalar) : ofPlainJson? s.toJson = some s := by
  cases s with
  | empty => rfl
  | bool value => rfl
  | int value => exact congrArg some (ofInteger_toInt value)
  | float value => rfl
  | text value => rfl

/-- A cell without a floating-point number is exact in writing. -/
theorem Scalar.exact_toJson (depth : Nat) (s : Scalar) (h : s.isFloat = false) :
    Exact depth s.toJson := by
  cases s with
  | empty => exact .null depth
  | bool value => exact .bool depth value
  | int value => exact exact_int64 depth value
  | float value => exact nomatch h
  | text value => exact .text depth value

namespace Record

/-- Columns that were found with the values of cells are read as these cells. -/
theorem fieldsOf?_of_values (fields : List (String × Scalar))
    (ds : List (List TextPiece × Document)) (hdepth : Document.depthOfMembers ds ≤ maxDepth)
    (hvalues : Document.valuesOfMembers? ds =
      some (fields.map fun field => (field.1, field.2.toJson))) :
    fieldsOf? ds = some fields := by
  induction ds generalizing fields with
  | nil => rw [List.map_eq_nil_iff.mp (Option.some.inj hvalues).symm]; rfl
  | cons member ds ih =>
      rcases member with ⟨pieces, d⟩
      rw [Document.depthOfMembers] at hdepth
      obtain ⟨key, value, others, hkey, hvalue, hothers, hall⟩ :=
        Document.exists_of_valuesOfMembers? hvalues
      rcases List.map_eq_cons_iff.mp hall with ⟨field, rest, rfl, hfield, hrest⟩
      rw [Prod.mk.injEq] at hfield
      -- A member is no deeper than its object, so its value is one of a document.
      have hd : d.value? = some field.2.toJson := by
        rw [Document.value?, if_pos (by omega), hvalue, hfield.2]
      have hfields := ih rest (by omega) (hothers.trans (congrArg some hrest.symm))
      rw [fieldsOf?] at hfields ⊢
      rw [List.mapM_cons, hfields]
      simp only [hkey, hd, ← hfield.1, Option.bind_eq_bind, Option.bind_some,
        Scalar.ofPlainJson?_toJson]
      rfl

/-- A record that is written is a document with one member, which holds its columns. -/
theorem read?_document (r : Record) (h : ∀ field ∈ r.fields, field.2.isFloat = false) :
    ∃ ds : List (List TextPiece × Document), Document.depthOfMembers ds ≤ maxDepth ∧
      Document.valuesOfMembers? ds = some (r.fields.map fun field => (field.1, field.2.toJson)) ∧
      Document.read? r.toJson.write = some (.object [("data".toList.map .char, .object ds)]) := by
  have hcells : ∀ member ∈ r.fields.map fun field => (field.1, field.2.toJson),
      ReadsAs 0 member.2 (write member.2) := by
    intro member hmember
    rcases List.mem_map.mp hmember with ⟨field, hfield, rfl⟩
    exact (Scalar.exact_toJson 0 field.2 (h field hfield)).readsAs
  rcases foldlM_object 0 _ hcells with ⟨ds, hdepth, hvalues, hread⟩
  refine ⟨ds, Nat.le_trans hdepth (Nat.zero_le _), hvalues, ?_⟩
  -- The brace, the one key, the object of the columns, and the brace at the end.
  have hwritten : r.toJson.write = '\x7b' :: ((writeText "data" ++ [':']) ++
      (write (.object (r.fields.map fun field => (field.1, field.2.toJson))) ++ ['\x7d'])) := by
    simp only [toJson, write, writeMembers, separate, List.append_assoc, List.cons_append,
      List.nil_append]
  have hopen : Reader.step Reader.start '\x7b' = some ⟨.key true [], []⟩ := rfl
  rw [Document.read?, hwritten, List.foldlM_cons, hopen, Option.bind_eq_bind, Option.bind_some,
    List.foldlM_append, foldlM_key, Option.bind_eq_bind, Option.bind_some, List.foldlM_append,
    hread, Option.bind_eq_bind, Option.bind_some]
  rfl

/-- A record is built from its own columns. -/
theorem ofList_fields (r : Record) : ofList r.fields = r :=
  Record.ext ((fields_ofList r.fields).trans (Keyed.settle_eq_self r.fields r.nodup))

/-- **A record is read back from its text**, unless it holds a floating-point number:
    with the same columns in the same order, and every cell of the same kind with the
    same value. -/
theorem read?_toText (r : Record) (h : ∀ field ∈ r.fields, field.2.isFloat = false) :
    read? r.toJson.toText = some r := by
  rcases read?_document r h with ⟨ds, hdepth, hvalues, hdocument⟩
  have hname : dataMembers? [("data".toList.map .char, .object ds)] = some [.object ds] := by
    simp only [dataMembers?, List.mapM_cons, List.mapM_nil, stringOf?_map_char]
    rfl
  rw [read?, toText, String.toList_ofList, hdocument, Option.bind_some, ofDocument?, hname]
  simp only [ofData?, fieldsOf?_of_values r.fields ds hdepth hvalues, Option.map_some,
    ofList_fields]

/-- Texts that look like other cells, and names and texts with characters that are
    escaped. -/
theorem read?_toText_lookalikes :
    let r := ofList [("", .text "1"), ("data", .int 1), ("null", .text "null"), ("e", .empty),
      ("\"q\\", .text "true"), ("t", .bool true), ("\n", .text ""),
      ("n", .int (-9223372036854775808)), ("\x01é😀", .text "\x7b\"data\":[]\x7d\u2028\x00")]
    (∀ field ∈ r.fields, field.2.isFloat = false) ∧ read? r.toJson.toText = some r := by
  intro r
  have hexact : ∀ field ∈ r.fields, field.2.isFloat = false := by decide
  exact ⟨hexact, read?_toText r hexact⟩

end Record

end TestbedReport
