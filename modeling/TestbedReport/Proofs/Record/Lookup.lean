import TestbedReport.Record.Basic
import Mathlib.Data.List.Nodup

/-!
# What a Record Holds

A record is built by setting one column after the other, and it is asked for one
column at a time. Here the two meet: the value of a column after any number of
columns were set is the last one that was set for it, and if none was, the one
it had before.

All records of a report are built that way, from lists of names and values. Some
of these lists come from the server and may repeat a name, hence "the last one",
which is the first in the reversed list. Others are fixed tables with a value
computed for each name. In a table no name is repeated, so the order does not
matter there and the value is found by its name alone.

## Theorems

* `Keyed.sublist_keys_filterMap`: The keys of the entries with a value.
* `Keyed.isSome_lookup_iff`: Values are found under the keys of the entries.
* `Keyed.lookup_eq_some_iff_mem`: Distinct keys are found with their values.
* `Keyed.lookup_reverse`: Distinct keys are found in any order.
* `Keyed.lookup_map`: A value computed from an entry is found under its key.
* `Keyed.lookup_filter_ne`: What is found without the entries of one key.
* `Keyed.lookup_filterMap`: The same where some entries have no value.
* `Keyed.lookup_foldl_put`: The value under a key after several are set.
* `Keyed.lookup_settle`, `Keyed.nodup_settle`: Of repeated keys the last counts, and
  none is left.
* `Keyed.takeOut_eq`: What is taken out, and what is left.
* `Keyed.eq_of_lookup`: Keys in order and their values are all there is.
* `Record.get?_insert`, `Record.get?_erase`: The value of a column after one is set,
  and after one is removed.
* `Record.fields_ofList`: The fields of a record built from a list.
* `Record.get?_foldl_insert`: The value of a column after several are set.
* `Record.get?_ofList`: The value of a column in a record built from a list.
* `Record.mem_columns_iff`: The columns are those with a value.
* `Record.remove_eq`: A column that is removed gives back its value.
* `Record.eq_of_get?`: Columns in order and their values are all of a record.
* `Record.columns_foldl_insert`: The columns after several are set.
-/

namespace TestbedReport

namespace Keyed

variable {κ α β ι : Type}

/-- Where a table gives some of its entries a value, their keys are a part of all its
    keys in the same order. -/
theorem sublist_keys_filterMap (keyOf : ι → κ) (value? : ι → Option α) (table : List ι) :
    ((table.filterMap fun j => (value? j).map fun value => (keyOf j, value)).map (·.1)).Sublist
      (table.map keyOf) := by
  induction table with
  | nil => exact List.Sublist.refl _
  | cons j rest ih =>
      rw [List.filterMap_cons, List.map_cons]
      cases value? j with
      | none => exact ih.cons _
      | some value => exact ih.cons_cons _

variable [BEq κ]

/-- A value computed from an entry is found under the key of the entry. -/
theorem lookup_map (f : α → β) (entries : List (κ × α)) (key : κ) :
    (entries.map fun entry => (entry.1, f entry.2)).lookup key = (entries.lookup key).map f := by
  induction entries with
  | nil => rfl
  | cons entry rest ih =>
      rw [List.map_cons, List.lookup_cons, List.lookup_cons, ih]
      cases key == entry.1 with
      | true => rfl
      | false => rfl

variable [LawfulBEq κ]

/-- A value is found under the keys of the entries and no other. -/
theorem isSome_lookup_iff (entries : List (κ × α)) (key : κ) :
    (entries.lookup key).isSome = true ↔ key ∈ entries.map (·.1) := by
  rw [List.lookup_isSome_iff, List.mem_map]
  constructor
  · rintro ⟨entry, hentry, hname⟩
    exact ⟨entry, hentry, (beq_iff_eq.mp hname).symm⟩
  · rintro ⟨entry, hentry, hname⟩
    exact ⟨entry, hentry, beq_iff_eq.mpr hname.symm⟩

/-- Under distinct keys a value is found exactly where it stands. -/
theorem lookup_eq_some_iff_mem (entries : List (κ × α)) (h : (entries.map (·.1)).Nodup)
    (key : κ) (value : α) : entries.lookup key = some value ↔ (key, value) ∈ entries := by
  induction entries with
  | nil => simp only [List.lookup_nil, reduceCtorEq, List.not_mem_nil]
  | cons entry rest ih =>
      rw [List.map_cons, List.nodup_cons] at h
      rcases h with ⟨hfirst, hrest⟩
      rcases entry with ⟨k, v⟩
      rw [List.lookup_cons, List.mem_cons, Prod.mk.injEq]
      by_cases hk : key = k
      · subst hk
        rw [beq_self_eq_true]
        constructor
        · intro hv
          exact Or.inl ⟨rfl, (Option.some.inj hv).symm⟩
        · -- The first entry hides a later one of its key, but there is none.
          rintro (⟨_, hv⟩ | hmem)
          · rw [hv]
          · exact absurd (List.mem_map_of_mem hmem) hfirst
      · rw [beq_eq_false_iff_ne.mpr hk]
        simp only [ih hrest, hk, false_and, false_or]

/-- Under distinct keys the entries of one key are the one that is found, if any. -/
theorem filter_eq_toList_lookup [DecidableEq κ] (entries : List (κ × α))
    (h : (entries.map (·.1)).Nodup) (key : κ) :
    entries.filter (fun entry => entry.1 = key) =
      ((entries.lookup key).map fun value => (key, value)).toList := by
  induction entries with
  | nil => rfl
  | cons entry rest ih =>
      rw [List.map_cons, List.nodup_cons] at h
      rcases h with ⟨hfirst, hrest⟩
      rw [List.lookup_cons]
      by_cases hkey : entry.1 = key
      · subst hkey
        -- The key stands first, and it does not come again.
        have hnone : rest.filter (fun other => other.1 = entry.1) = [] := by
          refine List.filter_eq_nil_iff.mpr fun other hother hsame => hfirst ?_
          exact List.mem_map.mpr ⟨other, hother, of_decide_eq_true hsame⟩
        have hfilter : (entry :: rest).filter (fun other => other.1 = entry.1) =
            entry :: rest.filter fun other => other.1 = entry.1 :=
          List.filter_cons_of_pos (decide_eq_true rfl)
        rw [hfilter, hnone, beq_self_eq_true]
        rfl
      · rw [List.filter_cons_of_neg (by simpa only [decide_eq_true_eq] using hkey), ih hrest,
          beq_eq_false_iff_ne.mpr fun hc => hkey hc.symm]

/-- Distinct keys are found in any order. -/
theorem lookup_reverse (entries : List (κ × α)) (h : (entries.map (·.1)).Nodup) (key : κ) :
    entries.reverse.lookup key = entries.lookup key := by
  have hreverse : (entries.reverse.map (·.1)).Nodup := by
    rw [List.map_reverse, List.nodup_reverse]
    exact h
  refine Option.ext fun value => ?_
  rw [lookup_eq_some_iff_mem _ hreverse, lookup_eq_some_iff_mem _ h, List.mem_reverse]

/-- Without the entries of one key, that key is not found and every other one is
    found as before. -/
theorem lookup_filter_ne [DecidableEq κ] (entries : List (κ × α)) (dropped key : κ) :
    (entries.filter fun entry => entry.1 ≠ dropped).lookup key =
      if key = dropped then none else entries.lookup key := by
  induction entries with
  | nil => exact (ite_self none).symm
  | cons entry rest ih =>
      rcases entry with ⟨k, v⟩
      by_cases hk : k = dropped
      · have hfilter : ((k, v) :: rest).filter (fun entry => entry.1 ≠ dropped) =
            rest.filter fun entry => entry.1 ≠ dropped :=
          List.filter_cons_of_neg (by simpa only [ne_eq, decide_not, Bool.not_eq_true,
            Bool.not_eq_false', decide_eq_true_eq] using hk)
        rw [hfilter, ih]
        by_cases hkey : key = dropped
        · rw [if_pos hkey, if_pos hkey]
        · -- The entry that is dropped is of another key.
          have hne : key ≠ k := fun hc => hkey (hc.trans hk)
          rw [if_neg hkey, if_neg hkey, List.lookup_cons, beq_eq_false_iff_ne.mpr hne]
      · have hfilter : ((k, v) :: rest).filter (fun entry => entry.1 ≠ dropped) =
            (k, v) :: rest.filter fun entry => entry.1 ≠ dropped :=
          List.filter_cons_of_pos (by simpa only [ne_eq, decide_not, Bool.not_eq_true',
            decide_eq_false_iff_not] using hk)
        rw [hfilter, List.lookup_cons, List.lookup_cons, ih]
        by_cases hkey : key = k
        · have hne : key ≠ dropped := fun hc => hk (hkey.symm.trans hc)
          simp only [beq_iff_eq.mpr hkey, if_neg hne]
        · rw [beq_eq_false_iff_ne.mpr hkey]

/-- Where a table gives each of its entries a key of its own and some of them a
    value, the value of an entry is found under its key. -/
theorem lookup_filterMap (keyOf : ι → κ) (value? : ι → Option α) (table : List ι)
    (h : (table.map keyOf).Nodup) (i : ι) (hi : i ∈ table) :
    (table.filterMap fun j => (value? j).map fun value => (keyOf j, value)).lookup (keyOf i) =
      value? i := by
  have hkeys := (sublist_keys_filterMap keyOf value? table).nodup h
  refine Option.ext fun value => ?_
  rw [lookup_eq_some_iff_mem _ hkeys, List.mem_filterMap]
  constructor
  · rintro ⟨j, hj, hvalue⟩
    rcases Option.map_eq_some_iff.mp hvalue with ⟨v, hv, hpair⟩
    rcases Prod.mk.inj hpair with ⟨hkey, rfl⟩
    -- Entries with the same key are the same entry.
    have hij : j = i := List.inj_on_of_nodup_map h hj hi hkey
    rw [← hij]
    exact hv
  · intro hvalue
    exact ⟨i, hi, by rw [hvalue]; rfl⟩

/-- After several values are set, a key has the one that was set last for it, or
    else the one it had. -/
theorem lookup_foldl_put (written entries : List (κ × α)) (key : κ) :
    (written.foldl (fun settled entry => put entry.1 entry.2 settled) entries).lookup key =
      (written.reverse.lookup key).or (entries.lookup key) := by
  induction written generalizing entries with
  | nil => rfl
  | cons entry rest ih =>
      rcases entry with ⟨k, v⟩
      -- What is set first is asked last: it stands at the end of the reversed list.
      rw [List.foldl_cons, ih, lookup_put, List.reverse_cons, List.lookup_append, Option.or_assoc]
      by_cases hkey : key = k
      · rw [if_pos (beq_iff_eq.mpr hkey), hkey, List.lookup_cons_self]
        rfl
      · rw [if_neg (fun hc => hkey (beq_iff_eq.mp hc)), List.lookup_cons,
          beq_eq_false_iff_ne.mpr hkey]
        rfl

/-- Of repeated keys the last counts. -/
theorem lookup_settle (written : List (κ × α)) (key : κ) :
    (settle written).lookup key = written.reverse.lookup key := by
  rw [settle, lookup_foldl_put, List.lookup_nil, Option.or_none]

theorem nodup_settle (written : List (κ × α)) : ((settle written).map (·.1)).Nodup := by
  have hfold : ∀ entries : List (κ × α), (entries.map (·.1)).Nodup →
      ((written.foldl (fun settled entry => put entry.1 entry.2 settled) entries).map
        (·.1)).Nodup := by
    induction written with
    | nil => exact fun _ h => h
    | cons entry rest ih => exact fun entries h => ih _ (nodup_put entry.1 entry.2 entries h)
  exact hfold [] List.nodup_nil

/-- Under distinct keys, what is taken out is the value of the key, and the entries
    of all other keys are left. -/
theorem takeOut_eq [DecidableEq κ] (key : κ) (entries : List (κ × α))
    (h : (entries.map (·.1)).Nodup) :
    takeOut key entries = (entries.lookup key, entries.filter fun entry => entry.1 ≠ key) := by
  induction entries with
  | nil => rfl
  | cons entry rest ih =>
      rcases entry with ⟨k, v⟩
      rw [List.map_cons, List.nodup_cons] at h
      rcases h with ⟨hfirst, hrest⟩
      by_cases hk : k = key
      · subst hk
        -- The key does not stand again behind its entry, so nothing else is lost.
        have hleft : rest.filter (fun entry => entry.1 ≠ k) = rest := by
          refine List.filter_eq_self.mpr fun entry hentry => decide_eq_true ?_
          exact fun hc => hfirst (List.mem_map.mpr ⟨entry, hentry, hc⟩)
        rw [takeOut, if_pos (beq_self_eq_true k), List.lookup_cons_self,
          List.filter_cons_of_neg (by simp only [ne_eq, not_true_eq_false, decide_false,
            Bool.false_eq_true, not_false_eq_true]), hleft]
      · have hne : key ≠ k := fun hc => hk hc.symm
        have hfilter : ((k, v) :: rest).filter (fun entry => entry.1 ≠ key) =
            (k, v) :: rest.filter fun entry => entry.1 ≠ key :=
          List.filter_cons_of_pos (decide_eq_true hk)
        rw [takeOut, if_neg (fun hc => hk (beq_iff_eq.mp hc)), ih hrest, hfilter, List.lookup_cons,
          beq_eq_false_iff_ne.mpr hne]

/-- Entries under the same keys in the same order are the same if the same values
    are found under them. -/
theorem eq_of_lookup {entries others : List (κ × α)}
    (hkeys : entries.map (·.1) = others.map (·.1)) (h : (entries.map (·.1)).Nodup)
    (hlookup : ∀ key, entries.lookup key = others.lookup key) : entries = others := by
  induction entries generalizing others with
  | nil => exact (List.map_eq_nil_iff.mp hkeys.symm).symm
  | cons entry rest ih =>
      rcases entry with ⟨k, v⟩
      cases others with
      | nil => exact absurd hkeys (List.cons_ne_nil _ _)
      | cons other others =>
          rcases other with ⟨k', v'⟩
          rw [List.map_cons, List.map_cons, List.cons.injEq] at hkeys
          rcases hkeys with ⟨rfl, hkeys⟩
          rw [List.map_cons, List.nodup_cons] at h
          have hvalue : v = v' := by
            have hfirst := hlookup k
            rw [List.lookup_cons_self, List.lookup_cons_self] at hfirst
            exact Option.some.inj hfirst
          have hrest : ∀ key, rest.lookup key = others.lookup key := by
            intro key
            by_cases hk : key = k
            · -- The first key does not stand again in either list.
              subst hk
              have hnone : ∀ entries : List (κ × α), key ∉ entries.map (·.1) →
                  entries.lookup key = none := by
                intro entries hmem
                rw [← Option.not_isSome_iff_eq_none, isSome_lookup_iff]
                exact hmem
              rw [hnone rest h.1, hnone others (hkeys ▸ h.1)]
            · have hboth := hlookup key
              rw [List.lookup_cons, List.lookup_cons, beq_eq_false_iff_ne.mpr hk] at hboth
              exact hboth
          rw [hvalue, ih hkeys h.2 hrest]

end Keyed

namespace Record

/-- The value of a column after one is set. -/
theorem get?_insert (r : Record) (column key : String) (value : Scalar) :
    (r.insert column value).get? key = if key = column then some value else r.get? key := by
  have h := Keyed.lookup_put column key value r.fields
  simp only [beq_iff_eq] at h
  exact h

/-- Setting columns of a record is setting values under the keys of its fields. -/
theorem fields_foldl_insert (fields : List (String × Scalar)) (r : Record) :
    (fields.foldl (fun r field => r.insert field.1 field.2) r).fields =
      fields.foldl (fun settled field => Keyed.put field.1 field.2 settled) r.fields := by
  induction fields generalizing r with
  | nil => rfl
  | cons field rest ih => exact ih (r.insert field.1 field.2)

/-- The fields of a record built from a list are what the list comes to. -/
theorem fields_ofList (fields : List (String × Scalar)) :
    (ofList fields).fields = Keyed.settle fields :=
  fields_foldl_insert fields empty

/-- After several columns are set, a column has the value that was set last for
    it, or else the one it had. -/
theorem get?_foldl_insert (fields : List (String × Scalar)) (r : Record) (key : String) :
    (fields.foldl (fun r field => r.insert field.1 field.2) r).get? key =
      (fields.reverse.lookup key).or (r.get? key) := by
  rw [get?, fields_foldl_insert, Keyed.lookup_foldl_put]
  rfl

/-- The value of a column in a record built from a list. -/
theorem get?_ofList (fields : List (String × Scalar)) (key : String) :
    (ofList fields).get? key = fields.reverse.lookup key := by
  rw [ofList, get?_foldl_insert]
  exact Option.or_none

/-- The same for a table with a value for each of its names. -/
theorem get?_ofList_map {α : Type} (f : α → Scalar) (table : List (String × α))
    (h : (table.map (·.1)).Nodup) (key : String) :
    (ofList (table.map fun entry => (entry.1, f entry.2))).get? key =
      (table.lookup key).map f := by
  rw [get?_ofList, ← List.map_reverse, Keyed.lookup_map, Keyed.lookup_reverse table h]

/-- The columns of a record are those with a value. -/
theorem mem_columns_iff (r : Record) (column : String) :
    column ∈ r.columns ↔ (r.get? column).isSome = true := by
  rw [columns, get?, Keyed.isSome_lookup_iff]

theorem contains_iff (r : Record) (column : String) :
    r.contains column = true ↔ column ∈ r.columns :=
  List.contains_iff_mem

/-- The value of a column after one is removed. -/
theorem get?_erase (r : Record) (dropped key : String) :
    (r.erase dropped).get? key = if key = dropped then none else r.get? key :=
  Keyed.lookup_filter_ne r.fields dropped key

/-- A column that is removed gives back its value. -/
theorem remove_eq (r : Record) (column : String) :
    r.remove column = (r.get? column, r.erase column) := by
  have htaken := Keyed.takeOut_eq column r.fields r.nodup
  refine Prod.ext ?_ (Record.ext ?_)
  · exact congrArg (·.1) htaken
  · exact congrArg (·.2) htaken

/-- Columns in order and their values are all there is to a record. -/
theorem eq_of_get? {r s : Record} (hcolumns : r.columns = s.columns)
    (hvalues : ∀ column, r.get? column = s.get? column) : r = s :=
  Record.ext (Keyed.eq_of_lookup hcolumns r.nodup hvalues)

/-- Setting several columns, each once, adds those at the end that the record does
    not have. -/
theorem columns_foldl_insert (fields : List (String × Scalar)) (r : Record)
    (h : (fields.map (·.1)).Nodup) :
    (fields.foldl (fun r field => r.insert field.1 field.2) r).columns =
      r.columns ++ (fields.map (·.1)).filter (· ∉ r.columns) := by
  induction fields generalizing r with
  | nil => exact (List.append_nil r.columns).symm
  | cons field rest ih =>
      rw [List.map_cons, List.nodup_cons] at h
      rw [List.foldl_cons, ih _ h.2, columns_insert, List.map_cons]
      by_cases hfield : field.1 ∈ r.columns
      · rw [if_pos ((contains_iff r field.1).mpr hfield),
          List.filter_cons_of_neg (by simpa using hfield)]
      · -- The column that is added is none of those to come.
        have hcome : (rest.map (·.1)).filter (· ∉ r.columns ++ [field.1]) =
            (rest.map (·.1)).filter (· ∉ r.columns) := by
          refine List.filter_congr fun column hcolumn => decide_eq_decide.mpr ?_
          have hne : column ≠ field.1 := fun hc => h.1 (hc ▸ hcolumn)
          rw [List.mem_append, List.mem_singleton, or_iff_left hne]
        rw [if_neg (fun hc => hfield ((contains_iff r field.1).mp hc)), hcome,
          List.filter_cons_of_pos (by simpa using hfield), List.append_assoc,
          List.singleton_append]

end Record

end TestbedReport
