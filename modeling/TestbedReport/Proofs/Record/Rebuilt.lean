import TestbedReport.Proofs.Record.Lookup

/-!
# Records Built from Changed Lists

A record is built from a list by setting one column after the other. The list can
be changed before that, or the record behind it, and for two kinds of change it
makes no difference: leaving out a column, and replacing values one by one. Both
hold of repeated columns too, because neither moves a column or decides which of
its values counts.

So a record that was built from a prepared list can be described by what was done
to the plain one.

## Main definitions

* `Record.mapValues`: A record with every value replaced.

## Theorems

* `Keyed.settle_eq_self`: A list without repeated keys is what it comes to.
* `Keyed.map_settle`, `Record.ofList_map`: Values replaced before are values replaced
  behind.
* `Record.ofList_filter`: A column left out before is a column removed behind.
* `Record.fields_insert`: A column that is new goes to the end.
* `Record.mem_columns_ofList`: The columns are the names that were set.
-/

namespace TestbedReport

namespace Keyed

variable {κ α β : Type} [BEq κ]

/-- Values can be replaced before one is set or behind it. -/
theorem map_put (f : α → β) (key : κ) (value : α) (entries : List (κ × α)) :
    (put key value entries).map (fun entry => (entry.1, f entry.2)) =
      put key (f value) (entries.map fun entry => (entry.1, f entry.2)) := by
  induction entries with
  | nil => rfl
  | cons entry rest ih =>
      by_cases hkey : (entry.1 == key) = true
      · simp only [put, hkey, if_true, List.map_cons]
      · simp only [put, hkey, if_false, List.map_cons, ih, Bool.false_eq_true]

/-- Values can be replaced before a list is settled or behind it. -/
theorem map_settle (f : α → β) (written : List (κ × α)) :
    (settle written).map (fun entry => (entry.1, f entry.2)) =
      settle (written.map fun entry => (entry.1, f entry.2)) := by
  -- The induction needs the entries that are settled already, whatever they are.
  have hfold : ∀ entries : List (κ × α),
      (written.foldl (fun settled entry => put entry.1 entry.2 settled) entries).map
          (fun entry => (entry.1, f entry.2)) =
        (written.map fun entry => (entry.1, f entry.2)).foldl
          (fun settled entry => put entry.1 entry.2 settled)
          (entries.map fun entry => (entry.1, f entry.2)) := by
    induction written with
    | nil => exact fun entries => rfl
    | cons entry rest ih =>
        intro entries
        rw [List.foldl_cons, List.map_cons, List.foldl_cons, ih, map_put]
  exact hfold []

variable [LawfulBEq κ]

/-- A value under a new key goes to the end. -/
theorem put_of_not_mem (key : κ) (value : α) (entries : List (κ × α))
    (h : key ∉ entries.map (·.1)) : put key value entries = entries ++ [(key, value)] := by
  induction entries with
  | nil => rfl
  | cons entry rest ih =>
      rw [List.map_cons, List.mem_cons, not_or] at h
      have hne : (entry.1 == key) = false := beq_eq_false_iff_ne.mpr fun hc => h.1 hc.symm
      rw [put, hne, ih h.2]
      rfl

/-- A list without repeated keys is what it comes to. -/
theorem settle_eq_self (entries : List (κ × α)) (h : (entries.map (·.1)).Nodup) :
    settle entries = entries := by
  have hfold : ∀ before : List (κ × α), ((before ++ entries).map (·.1)).Nodup →
      entries.foldl (fun settled entry => put entry.1 entry.2 settled) before =
        before ++ entries := by
    -- Keys must be distinct together with what is settled, so `h` says too little.
    clear h
    induction entries with
    | nil => exact fun before _ => (List.append_nil before).symm
    | cons entry rest ih =>
        intro before hnodup
        have hnew : entry.1 ∉ before.map (·.1) := by
          intro hmem
          rw [List.map_append, List.nodup_append] at hnodup
          exact hnodup.2.2 _ hmem _ (by simp) rfl
        have happend : before ++ entry :: rest = (before ++ [entry]) ++ rest := by
          rw [List.append_assoc, List.singleton_append]
        rw [List.foldl_cons, put_of_not_mem entry.1 entry.2 before hnew, happend]
        exact ih _ (by rwa [← happend])
  exact hfold [] h

variable [DecidableEq κ]

/-- The entries of a key can be left out before a value is set or behind it. -/
theorem filter_put (dropped key : κ) (value : α) (entries : List (κ × α)) :
    (put key value entries).filter (fun entry => entry.1 ≠ dropped) =
      if key = dropped then entries.filter fun entry => entry.1 ≠ dropped
      else put key value (entries.filter fun entry => entry.1 ≠ dropped) := by
  induction entries with
  | nil => by_cases h : key = dropped <;> simp [put, h]
  | cons entry rest ih =>
      by_cases hkey : entry.1 = key
      · by_cases h : key = dropped <;> simp [put, hkey, h]
      · by_cases h : key = dropped
        · -- What is set is left out again, and so is the rest of its key.
          subst h
          simp_all [put]
        · by_cases hentry : entry.1 = dropped <;> simp_all [put]

end Keyed

namespace Record

/-- A record with every value replaced. -/
def mapValues (f : Scalar → Scalar) (r : Record) : Record where
  fields := r.fields.map fun field => (field.1, f field.2)
  nodup := by
    rw [List.map_map]
    exact r.nodup

/-- Removing a column can wait until one is set. -/
theorem erase_insert (r : Record) (dropped column : String) (value : Scalar) :
    (r.insert column value).erase dropped =
      if column = dropped then r.erase dropped else (r.erase dropped).insert column value := by
  have h := Keyed.filter_put dropped column value r.fields
  by_cases hcolumn : column = dropped
  · rw [if_pos hcolumn] at h ⊢
    exact Record.ext h
  · rw [if_neg hcolumn] at h ⊢
    exact Record.ext h

/-- Values replaced in a list are values replaced in its record. -/
theorem ofList_map (f : Scalar → Scalar) (fields : List (String × Scalar)) :
    ofList (fields.map fun field => (field.1, f field.2)) = (ofList fields).mapValues f := by
  have hfields : ((ofList fields).mapValues f).fields =
      (ofList fields).fields.map fun field => (field.1, f field.2) := rfl
  refine Record.ext ?_
  rw [hfields, fields_ofList, fields_ofList, Keyed.map_settle]

/-- A column left out of a list is a column removed from its record. -/
theorem ofList_filter (dropped : String) (fields : List (String × Scalar)) :
    ofList (fields.filter fun field => field.1 ≠ dropped) = (ofList fields).erase dropped := by
  have hfold : ∀ r : Record,
      (fields.filter fun field => field.1 ≠ dropped).foldl
          (fun r field => r.insert field.1 field.2) (r.erase dropped) =
        (fields.foldl (fun r field => r.insert field.1 field.2) r).erase dropped := by
    induction fields with
    | nil => exact fun r => rfl
    | cons field rest ih =>
        intro r
        rw [List.foldl_cons, ← ih, erase_insert]
        -- A column that is left out is removed again from what it was set on.
        by_cases hfield : field.1 = dropped
        · rw [if_pos hfield, List.filter_cons_of_neg (by simpa using hfield)]
        · rw [if_neg hfield, List.filter_cons_of_pos (by simpa using hfield), List.foldl_cons]
  exact hfold empty

/-- The columns of a record are the names that were set. -/
theorem mem_columns_ofList (fields : List (String × Scalar)) (column : String) :
    column ∈ (ofList fields).columns ↔ column ∈ fields.map (·.1) := by
  rw [mem_columns_iff, get?_ofList, Keyed.isSome_lookup_iff, List.map_reverse, List.mem_reverse]

/-- A column that is new goes to the end. -/
theorem fields_insert (r : Record) (column : String) (value : Scalar) (h : column ∉ r.columns) :
    (r.insert column value).fields = r.fields ++ [(column, value)] :=
  Keyed.put_of_not_mem column value r.fields h

end Record

end TestbedReport
