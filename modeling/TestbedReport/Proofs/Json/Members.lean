import TestbedReport.Proofs.Record.Lookup
import TestbedReport.Json.Value

/-!
# Members as Written and as Valued

An object may be written with a key more than once, with its members in any order,
and with members that no one asks for. Valuing it settles the keys, so of a
document that was read no object repeats one, however deep it lies (`Settled`).
Where no key is repeated it does not matter from which end a member is looked for,
and the stages of a report, which do not all look from the same end, find the same.

`Document.field` says without any of this what a document holds under a key: the
value that was written last, and null if there is none. What is found in the value
is that (`Document.field_eq`).

## Main definitions

* `Json.Settled`: No object repeats a key.
* `Json.Document.Valued`: How a document and its value correspond.
* `Json.Document.field`: What a document holds under a key.
* `Json.Document.objects`: The objects of an array, as written.

## Theorems

* `Json.settled_of_parse?`: What is read repeats no key.
* `Json.Document.field_eq`: What a document holds is found in its value.
-/

namespace TestbedReport

namespace Json

/-- No object repeats a key. -/
inductive Settled : Json → Prop where
  | null : Settled .null
  | bool (value : Bool) : Settled (.bool value)
  | integer (value : Int) : Settled (.integer value)
  | float (value : Float) : Settled (.float value)
  | text (value : String) : Settled (.text value)
  | array (items : List Json) (hitems : ∀ item ∈ items, Settled item) : Settled (.array items)
  | object (members : List (String × Json)) (hkeys : (members.map (·.1)).Nodup)
      (hmembers : ∀ member ∈ members, Settled member.2) : Settled (.object members)

theorem Settled.of_mem_items {value item : Json} (h : Settled value) (hitem : item ∈ value.items) :
    Settled item := by
  cases h with
  | array items hitems => exact hitems item hitem
  | _ => exact absurd hitem List.not_mem_nil

/-- A member of a settled object is the same from either end. -/
theorem Settled.lookup_reverse {members : List (String × Json)} (h : Settled (.object members))
    (key : String) : members.reverse.lookup key = members.lookup key := by
  cases h with
  | object _ hkeys _ => exact Keyed.lookup_reverse members hkeys key

theorem Settled.of_member? {value member : Json} {key : String} (h : Settled value)
    (hmember : value.member? key = some member) : Settled member := by
  cases h with
  | object members hkeys hmembers =>
      exact hmembers (key, member)
        ((Keyed.lookup_eq_some_iff_mem members hkeys key member).mp hmember)
  | _ => nomatch hmember

/-- Settling the members of an object leaves no value that was not written. -/
theorem Settled.of_settle {written : List (String × Json)}
    (h : ∀ member ∈ written, Settled member.2) : Settled (.object (Keyed.settle written)) := by
  refine .object _ (Keyed.nodup_settle written) fun member hmember => ?_
  rcases member with ⟨key, value⟩
  have hlookup := (Keyed.lookup_eq_some_iff_mem _ (Keyed.nodup_settle written) key value).mpr
    hmember
  rw [Keyed.lookup_settle] at hlookup
  -- What is found under a key was written, at the last place where the key stands.
  rcases List.lookup_eq_some_iff.mp hlookup with ⟨before, after, hsplit, _⟩
  have hmem : (key, value) ∈ written.reverse := by
    rw [hsplit]
    exact List.mem_append_right before List.mem_cons_self
  exact h (key, value) (List.mem_reverse.mp hmem)

namespace Document

/-- How a document and its value correspond, one level deep. -/
inductive Valued : Document → Json → Prop where
  | null : Valued .null .null
  | bool (flag : Bool) : Valued (.bool flag) (.bool flag)
  | integer (parts : NumberText) (value : Int) : Valued (.number parts) (.integer value)
  | float (parts : NumberText) (value : Float) : Valued (.number parts) (.float value)
  | text (pieces : List TextPiece) (value : String) : Valued (.text pieces) (.text value)
  | array (items : List Document) (values : List Json)
      (hvalues : valuesOfItems? items = some values) : Valued (.array items) (.array values)
  | object (written : List (List TextPiece × Document)) (members : List (String × Json))
      (hmembers : valuesOfMembers? written = some members) :
      Valued (.object written) (.object (Keyed.settle members))

theorem valued_of_valueAnyDepth? {d : Document} {value : Json}
    (h : d.valueAnyDepth? = some value) : Valued d value := by
  cases d with
  | null =>
      rw [← Option.some.inj h]
      exact .null
  | bool flag =>
      rw [← Option.some.inj h]
      exact .bool flag
  | number parts =>
      -- A number is an integer if it fits, signed or unsigned, and else a float.
      rw [valueAnyDepth?] at h
      unfold NumberText.value? at h
      simp only at h
      split at h
      · rw [← Option.some.inj h]
        exact .integer parts _
      · split at h
        · rw [← Option.some.inj h]
          exact .integer parts _
        · rcases Option.map_eq_some_iff.mp h with ⟨x, _, rfl⟩
          exact .float parts x
  | text pieces =>
      rcases Option.map_eq_some_iff.mp h with ⟨text, _, rfl⟩
      exact .text pieces text
  | array items =>
      rcases Option.map_eq_some_iff.mp h with ⟨values, hvalues, rfl⟩
      exact .array items values hvalues
  | object written =>
      rcases Option.map_eq_some_iff.mp h with ⟨members, hmembers, rfl⟩
      exact .object written members hmembers

theorem valueAnyDepth?_of_value? {d : Document} {value : Json} (h : d.value? = some value) :
    d.valueAnyDepth? = some value := by
  rw [value?] at h
  split at h
  · exact h
  · nomatch h

theorem exists_of_valuesOfItems? {first : Document} {rest : List Document} {values : List Json}
    (h : valuesOfItems? (first :: rest) = some values) :
    ∃ value others, first.valueAnyDepth? = some value ∧ valuesOfItems? rest = some others ∧
      values = value :: others := by
  rw [valuesOfItems?] at h
  split at h
  · next value others hvalue hothers =>
      exact ⟨value, others, hvalue, hothers, (Option.some.inj h).symm⟩
  · nomatch h

theorem exists_of_valuesOfMembers? {pieces : List TextPiece} {first : Document}
    {rest : List (List TextPiece × Document)} {members : List (String × Json)}
    (h : valuesOfMembers? ((pieces, first) :: rest) = some members) :
    ∃ key value others, stringOf? pieces = some key ∧ first.valueAnyDepth? = some value ∧
      valuesOfMembers? rest = some others ∧ members = (key, value) :: others := by
  rw [valuesOfMembers?] at h
  split at h
  · next key value others hkey hvalue hothers =>
      exact ⟨key, value, others, hkey, hvalue, hothers, (Option.some.inj h).symm⟩
  · nomatch h

mutual

theorem settled_of_valueAnyDepth? (d : Document) (value : Json)
    (h : d.valueAnyDepth? = some value) : Settled value := by
  -- The induction is on the document. The value gives no hold, because settling its
  -- members reorders and drops them.
  match d, value, valued_of_valueAnyDepth? h with
  | .array items, .array values, .array _ _ hvalues =>
      exact .array values (settled_of_valuesOfItems? items values hvalues)
  | .object written, .object _, .object _ members hmembers =>
      exact Settled.of_settle (settled_of_valuesOfMembers? written members hmembers)
  | _, _, .null => exact .null
  | _, _, .bool flag => exact .bool flag
  | _, _, .integer _ n => exact .integer n
  | _, _, .float _ x => exact .float x
  | _, _, .text _ read => exact .text read

theorem settled_of_valuesOfItems? (items : List Document) (values : List Json)
    (h : valuesOfItems? items = some values) : ∀ value ∈ values, Settled value := by
  match items with
  | [] =>
      rw [← Option.some.inj h]
      exact fun _ hvalue => absurd hvalue List.not_mem_nil
  | first :: rest =>
      rcases exists_of_valuesOfItems? h with ⟨value, others, hvalue, hothers, rfl⟩
      exact List.forall_mem_cons.mpr ⟨settled_of_valueAnyDepth? first value hvalue,
        settled_of_valuesOfItems? rest others hothers⟩

theorem settled_of_valuesOfMembers? (written : List (List TextPiece × Document))
    (members : List (String × Json)) (h : valuesOfMembers? written = some members) :
    ∀ member ∈ members, Settled member.2 := by
  match written with
  | [] =>
      rw [← Option.some.inj h]
      exact fun _ hmember => absurd hmember List.not_mem_nil
  | (pieces, first) :: rest =>
      rcases exists_of_valuesOfMembers? h with ⟨key, value, others, -, hvalue, hothers, rfl⟩
      exact List.forall_mem_cons.mpr ⟨settled_of_valueAnyDepth? first value hvalue,
        settled_of_valuesOfMembers? rest others hothers⟩

end

/-- What a document holds under a key: the value that was written last, or null if
    there is none. -/
def field (d : Document) (key : String) : Json :=
  match d with
  | .object written =>
    ((valuesOfMembers? written).bind fun members => members.reverse.lookup key).getD .null
  | _ => .null

theorem field_eq {d : Document} {value : Json} (h : d.valueAnyDepth? = some value) (key : String) :
    d.field key = (value.member? key).getD .null := by
  cases valued_of_valueAnyDepth? h with
  | object written members hmembers =>
      rw [field, hmembers, Option.bind_some, member?, Keyed.lookup_settle]
  | _ => rfl

/-- Whether an object is written. -/
def isObject : Document → Bool
  | .object _ => true
  | _ => false

/-- The objects of an array as written, in order. Other documents have none. -/
def objects : Document → List Document
  | .array items => items.filter isObject
  | _ => []

end Document

theorem settled_of_parse? {text : String} {value : Json} (h : parse? text = some value) :
    Settled value := by
  rcases Option.bind_eq_some_iff.mp h with ⟨d, _, hvalue⟩
  exact d.settled_of_valueAnyDepth? value (Document.valueAnyDepth?_of_value? hvalue)

end Json

end TestbedReport
