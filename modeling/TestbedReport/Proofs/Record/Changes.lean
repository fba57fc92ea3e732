import TestbedReport.Proofs.Json.Members
import TestbedReport.Proofs.Record.Rebuilt

/-!
# A Record behind Its Changes

The columns of a report stand in the order in which they came into a record, and a
column can come in more than once: it is set, removed and set again. What a record
holds behind such a history can be told from the history alone. A column has the
value it was last set to, if nothing was done to it since, and it stands where it
came in: at the setting that found it absent and behind which it was never removed.

`Follows` says so of a record and a list of changes. One more change keeps it
(`Follows.apply`), so it holds behind any number of them. Three things can happen to
the order. A column that is there is set again, and no column comes in
(`Follows.insert_held`). A new one comes in behind all others
(`Follows.insert_absent`). And one is removed, with the others as they were
(`Follows.remove`).

The record of a JSON object begins such a history with its members. It does not
matter that reading has settled the repeated keys by then: setting the members as
they are written comes to the same (`ofJson?_eq_after`).

## Main definitions

* `Record.Change`: A change of a record.
* `Record.after`: The record behind changes.
* `Record.LastSet`, `Record.CameIn`: What changes say of a column.
* `Record.Follows`: A record holds what its changes say.
* `Json.writtenMembers?`: The members of an object as they are written.

## Theorems

* `Record.lastSet_concat`, `Record.cameIn_concat`: One change more.
* `Record.Follows.insert_held`, `Record.Follows.insert_absent`, `Record.Follows.remove`:
  What a change does to the values and to the order.
* `Record.Follows.apply`, `Record.Follows.after`: A change keeps it, and so do all.
* `Record.after_settle`: Repeated members can be settled before they are set.
* `Record.ofJson?_eq_after`: The record of a text is that of its members as written.
* `Record.follows_every_log`: Records are ordered maps, whatever happened to them.
-/

namespace TestbedReport

/-- The members of the object that a text holds, as they are written: a repeated key
    stands as often as it is repeated. Other texts have none. -/
def Json.writtenMembers? (text : String) : Option (List (String × Json)) :=
  match Json.Document.read? text.toList with
  | some (.object written) => Json.Document.valuesOfMembers? written
  | _ => none

namespace Record

/-- A change of a record. -/
inductive Change where
  | insert (column : String) (value : Scalar)
  | remove (column : String)

namespace Change

/-- The column that is changed. -/
def column : Change → String
  | .insert column _ => column
  | .remove column => column

/-- The record behind one change. -/
def apply (r : Record) : Change → Record
  | .insert column value => r.insert column value
  | .remove column => (r.remove column).2

end Change

/-- The record behind changes, made one after the other. -/
def after (r : Record) (log : List Change) : Record :=
  log.foldl Change.apply r

/-- The most recent change of a column sets it to a value. -/
def LastSet (log : List Change) (column : String) (value : Scalar) : Prop :=
  ∃ before later, log = before ++ .insert column value :: later ∧
    ∀ change ∈ later, change.column ≠ column

/-- A column came in with the change at a place: the change sets it, it was absent
    until then, and no later change removes it. -/
def CameIn (log : List Change) (column : String) (place : Nat) : Prop :=
  ∃ before value later, log = before ++ .insert column value :: later ∧ before.length = place ∧
    (∀ held, ¬LastSet before column held) ∧ .remove column ∉ later

/-- A record holds what a list of changes says: its columns are distinct, each with
    the value it was last set to, in the order in which they came in. And it goes on
    like that: a column that is set again keeps its place, and one that is removed
    gives back its value and leaves the others in order. -/
structure Follows (log : List Change) (r : Record) : Prop where
  distinct : r.columns.Nodup
  size : r.size = r.columns.length
  value : ∀ column value, r.get? column = some value ↔ LastSet log column value
  present : ∀ column, r.contains column = true ↔ ∃ value, LastSet log column value
  entered : ∀ column, column ∈ r.columns ↔ ∃ place, CameIn log column place
  order : r.columns.Pairwise fun first second =>
    ∀ place behind, CameIn log first place → CameIn log second behind → place < behind
  reinserted : ∀ column value, column ∈ r.columns → (r.insert column value).columns = r.columns
  removed : ∀ column, (r.remove column).1 = r.get? column
  closed : ∀ column, (r.remove column).2.columns = r.columns.filter (· ≠ column)

/-- A list with one more change, cut at a change: it is cut at the last one, or where
    the list was cut without it. -/
theorem concat_eq_append_cons_iff {α : Type} (log before later : List α) (change cut : α) :
    log ++ [change] = before ++ cut :: later ↔
      (later = [] ∧ log = before ∧ change = cut) ∨
        ∃ rest, later = rest ++ [change] ∧ log = before ++ cut :: rest := by
  rcases List.eq_nil_or_concat later with rfl | ⟨rest, last, rfl⟩
  · constructor
    · intro h
      rcases List.append_inj' h rfl with ⟨hlog, hcut⟩
      exact Or.inl ⟨rfl, hlog, List.head_eq_of_cons_eq hcut⟩
    · rintro (⟨_, rfl, rfl⟩ | ⟨rest, hrest, _⟩)
      · rfl
      · exact absurd hrest.symm (List.append_ne_nil_of_right_ne_nil rest (List.cons_ne_nil _ _))
  · -- The last change is behind the cut, so both lists end in it.
    have hassoc : before ++ cut :: (rest ++ [last]) = (before ++ cut :: rest) ++ [last] := by
      rw [List.append_assoc, List.cons_append]
    constructor
    · intro h
      rw [List.concat_eq_append, hassoc] at h
      rcases List.append_inj' h rfl with ⟨hlog, hlast⟩
      rw [List.head_eq_of_cons_eq hlast]
      exact Or.inr ⟨rest, List.concat_eq_append, hlog⟩
    · rintro (⟨hnil, _⟩ | ⟨kept, hkept, rfl⟩)
      · rw [List.concat_eq_append] at hnil
        exact absurd hnil (List.append_ne_nil_of_right_ne_nil rest (List.cons_ne_nil _ _))
      · rw [hkept, List.append_assoc, List.cons_append]

theorem not_lastSet_nil (column : String) (value : Scalar) : ¬LastSet [] column value := by
  rintro ⟨before, later, hlog, _⟩
  exact List.append_ne_nil_of_right_ne_nil before (List.cons_ne_nil _ later) hlog.symm

theorem not_cameIn_nil (column : String) (place : Nat) : ¬CameIn [] column place := by
  rintro ⟨before, value, later, hlog, _⟩
  exact List.append_ne_nil_of_right_ne_nil before (List.cons_ne_nil _ later) hlog.symm

/-- With one more change, a column was last set by it, or before it if it is of another
    column. -/
theorem lastSet_concat (log : List Change) (change : Change) (column : String) (value : Scalar) :
    LastSet (log ++ [change]) column value ↔
      change = .insert column value ∨ change.column ≠ column ∧ LastSet log column value := by
  constructor
  · rintro ⟨before, later, hlog, hlater⟩
    -- The change that set the column is the new one, or stands where it stood.
    rcases (concat_eq_append_cons_iff log before later change _).mp hlog with
      ⟨_, _, hchange⟩ | ⟨rest, rfl, hrest⟩
    · exact Or.inl hchange
    · rw [List.forall_mem_append] at hlater
      exact Or.inr ⟨hlater.2 change List.mem_cons_self, before, rest, hrest, hlater.1⟩
  · rintro (rfl | ⟨hchange, before, rest, rfl, hrest⟩)
    · exact ⟨log, [], rfl, fun _ hmem => absurd hmem List.not_mem_nil⟩
    · refine ⟨before, rest ++ [change], by rw [List.append_assoc, List.cons_append], ?_⟩
      rw [List.forall_mem_append]
      exact ⟨hrest, List.forall_mem_singleton.mpr hchange⟩

/-- With one more change, a column came in before it if the change does not remove it,
    or with it if the change sets what was absent. -/
theorem cameIn_concat (log : List Change) (change : Change) (column : String) (place : Nat) :
    CameIn (log ++ [change]) column place ↔
      (change ≠ .remove column ∧ CameIn log column place) ∨
        ((∃ value, change = .insert column value) ∧ (∀ held, ¬LastSet log column held) ∧
          place = log.length) := by
  constructor
  · rintro ⟨before, value, later, hlog, hplace, habsent, hlater⟩
    -- The change that let the column in is the new one, or stands where it stood.
    rcases (concat_eq_append_cons_iff log before later change _).mp hlog with
      ⟨_, rfl, hchange⟩ | ⟨rest, rfl, hrest⟩
    · exact Or.inr ⟨⟨value, hchange⟩, habsent, hplace.symm⟩
    · rw [List.mem_append, List.mem_singleton, not_or] at hlater
      exact Or.inl ⟨fun hc => hlater.2 hc.symm, before, value, rest, hrest, hplace, habsent,
        hlater.1⟩
  · rintro (⟨hchange, before, value, rest, rfl, hplace, habsent, hrest⟩ |
      ⟨⟨value, rfl⟩, habsent, hplace⟩)
    · refine ⟨before, value, rest ++ [change], by rw [List.append_assoc, List.cons_append], hplace,
        habsent, ?_⟩
      rw [List.mem_append, List.mem_singleton, not_or]
      exact ⟨hrest, fun hc => hchange hc.symm⟩
    · exact ⟨log, value, [], rfl, hplace.symm, habsent, List.not_mem_nil⟩

theorem CameIn.lt_length {log : List Change} {column : String} {place : Nat}
    (h : CameIn log column place) : place < log.length := by
  rcases h with ⟨before, value, later, rfl, rfl, _⟩
  rw [List.length_append, List.length_cons]
  omega

/-- Setting a column that is there lets no column in. -/
theorem cameIn_insert_held {log : List Change} {column : String} (value : Scalar)
    (h : ∃ held, LastSet log column held) (other : String) (place : Nat) :
    CameIn (log ++ [.insert column value]) other place ↔ CameIn log other place := by
  rw [cameIn_concat]
  constructor
  · rintro (⟨_, hcame⟩ | ⟨⟨set, hset⟩, habsent, _⟩)
    · exact hcame
    · -- It cannot have come in with the change, because it was there.
      rcases h with ⟨held, hheld⟩
      rw [Change.insert.injEq] at hset
      exact absurd (hset.1 ▸ hheld) (habsent held)
  · exact fun hcame => Or.inl ⟨Change.noConfusion, hcame⟩

/-- Setting a column that is absent lets it in behind all others. -/
theorem cameIn_insert_absent {log : List Change} {column : String} (value : Scalar)
    (h : ∀ held, ¬LastSet log column held) (other : String) (place : Nat) :
    CameIn (log ++ [.insert column value]) other place ↔
      CameIn log other place ∨ other = column ∧ place = log.length := by
  rw [cameIn_concat]
  constructor
  · rintro (⟨_, hcame⟩ | ⟨⟨set, hset⟩, _, hplace⟩)
    · exact Or.inl hcame
    · rw [Change.insert.injEq] at hset
      exact Or.inr ⟨hset.1.symm, hplace⟩
  · rintro (hcame | ⟨rfl, hplace⟩)
    · exact Or.inl ⟨Change.noConfusion, hcame⟩
    · exact Or.inr ⟨⟨value, rfl⟩, h, hplace⟩

/-- Removing a column leaves where the others came in. -/
theorem cameIn_remove (log : List Change) (column other : String) (place : Nat) :
    CameIn (log ++ [.remove column]) other place ↔ other ≠ column ∧ CameIn log other place := by
  rw [cameIn_concat]
  constructor
  · rintro (⟨hchange, hcame⟩ | ⟨⟨set, hset⟩, _⟩)
    · exact ⟨fun hc => hchange (hc ▸ rfl), hcame⟩
    · exact Change.noConfusion hset
  · rintro ⟨hne, hcame⟩
    refine Or.inl ⟨fun hc => hne ?_, hcame⟩
    rw [Change.remove.injEq] at hc
    exact hc.symm

/-- Behind one change a column has the value it is set to, or the one it had if the
    change is of another column. -/
theorem get?_apply_iff (r : Record) (change : Change) (column : String) (value : Scalar) :
    (change.apply r).get? column = some value ↔
      change = .insert column value ∨ change.column ≠ column ∧ r.get? column = some value := by
  -- A change decides about its own column and leaves the others.
  cases change with
  | insert set new =>
      rw [Change.apply, get?_insert, Change.insert.injEq, Change.column]
      by_cases h : column = set
      · rw [if_pos h, Option.some.injEq]
        constructor
        · exact fun hvalue => Or.inl ⟨h.symm, hvalue⟩
        · rintro (⟨_, hvalue⟩ | ⟨hne, _⟩)
          · exact hvalue
          · exact absurd h.symm hne
      · rw [if_neg h]
        constructor
        · exact fun hvalue => Or.inr ⟨fun hc => h hc.symm, hvalue⟩
        · rintro (⟨hset, _⟩ | ⟨_, hvalue⟩)
          · exact absurd hset.symm h
          · exact hvalue
  | remove dropped =>
      rw [Change.apply, remove_eq, get?_erase, Change.column]
      by_cases h : column = dropped
      · rw [if_pos h]
        constructor
        · exact fun hnone => nomatch hnone
        · rintro (hset | ⟨hne, _⟩)
          · exact Change.noConfusion hset
          · exact absurd h.symm hne
      · rw [if_neg h]
        constructor
        · exact fun hvalue => Or.inr ⟨fun hc => h hc.symm, hvalue⟩
        · rintro (hset | ⟨_, hvalue⟩)
          · exact Change.noConfusion hset
          · exact hvalue

namespace Follows

variable {log : List Change} {r : Record}

/-- Of what a record holds, the values and the order depend on the changes. The rest
    holds of every record. -/
theorem of_order (value : ∀ column value, r.get? column = some value ↔ LastSet log column value)
    (entered : ∀ column, column ∈ r.columns ↔ ∃ place, CameIn log column place)
    (order : r.columns.Pairwise fun first second =>
      ∀ place behind, CameIn log first place → CameIn log second behind → place < behind) :
    Follows log r where
  distinct := r.nodup
  size := (List.length_map _).symm
  value := value
  present := by
    intro column
    rw [contains_iff, mem_columns_iff, Option.isSome_iff_exists]
    exact exists_congr (value column)
  entered := entered
  order := order
  -- From here on nothing is asked of the log.
  reinserted := by
    intro column value hcolumn
    rw [columns_insert, if_pos ((contains_iff r column).mpr hcolumn)]
  removed := by
    intro column
    rw [remove_eq]
  closed := by
    intro column
    rw [remove_eq, columns_erase]

theorem mem_columns_iff_lastSet (h : Follows log r) (column : String) :
    column ∈ r.columns ↔ ∃ value, LastSet log column value := by
  rw [← contains_iff, h.present]

/-- A record without columns has no history. -/
theorem empty : Follows [] empty := by
  refine of_order ?_ ?_ List.Pairwise.nil
  · intro column value
    exact iff_of_false (fun hnone => nomatch hnone) (not_lastSet_nil column value)
  · intro column
    exact iff_of_false List.not_mem_nil fun ⟨place, hcame⟩ => not_cameIn_nil column place hcame

/-- The values behind one more change are those that were set last. -/
theorem value_apply (h : Follows log r) (change : Change) (column : String) (value : Scalar) :
    (change.apply r).get? column = some value ↔ LastSet (log ++ [change]) column value := by
  rw [get?_apply_iff, lastSet_concat, h.value]

/-- Setting a column that is there moves nothing. -/
theorem insert_held (h : Follows log r) {column : String} (hcolumn : column ∈ r.columns)
    (new : Scalar) : Follows (log ++ [.insert column new]) (r.insert column new) := by
  have hcame := cameIn_insert_held new ((h.mem_columns_iff_lastSet column).mp hcolumn)
  have hcolumns : (r.insert column new).columns = r.columns := h.reinserted column new hcolumn
  refine of_order (h.value_apply (.insert column new)) ?_ ?_
  · intro other
    rw [hcolumns, h.entered]
    exact exists_congr fun place => (hcame other place).symm
  · rw [hcolumns]
    refine h.order.imp fun {first second} hbefore place behind hfirst hsecond => ?_
    exact hbefore place behind ((hcame first place).mp hfirst) ((hcame second behind).mp hsecond)

/-- A new column comes in last. -/
theorem insert_absent (h : Follows log r) {column : String} (hcolumn : column ∉ r.columns)
    (new : Scalar) : Follows (log ++ [.insert column new]) (r.insert column new) := by
  have habsent : ∀ held, ¬LastSet log column held := fun held hheld =>
    hcolumn ((h.mem_columns_iff_lastSet column).mpr ⟨held, hheld⟩)
  have hcame := cameIn_insert_absent new habsent
  have hcolumns : (r.insert column new).columns = r.columns ++ [column] := by
    rw [columns_insert, if_neg (fun hc => hcolumn ((contains_iff r column).mp hc))]
  -- Where the columns that are there came in is not changed by a new one.
  have hthere : ∀ other ∈ r.columns, ∀ place,
      CameIn (log ++ [.insert column new]) other place → CameIn log other place := by
    intro other hother place hplace
    rcases (hcame other place).mp hplace with hplace | ⟨rfl, _⟩
    · exact hplace
    · exact absurd hother hcolumn
  refine of_order (h.value_apply (.insert column new)) ?entered ?order
  case entered =>
    intro other
    rw [hcolumns, List.mem_append, List.mem_singleton, h.entered]
    constructor
    · rintro (⟨place, hplace⟩ | hname)
      · exact ⟨place, (hcame other place).mpr (Or.inl hplace)⟩
      · exact ⟨log.length, (hcame other log.length).mpr (Or.inr ⟨hname, rfl⟩)⟩
    · rintro ⟨place, hplace⟩
      rcases (hcame other place).mp hplace with hplace | ⟨hname, _⟩
      · exact Or.inl ⟨place, hplace⟩
      · exact Or.inr hname
  case order =>
    rw [hcolumns, List.pairwise_append]
    refine ⟨?_, List.pairwise_singleton _ _, ?_⟩
    · refine h.order.imp_of_mem fun {first second} hfirst hsecond hbefore => ?_
      intro place behind hplace hbehind
      exact hbefore place behind (hthere first hfirst place hplace)
        (hthere second hsecond behind hbehind)
    · -- All columns that were there came in within the log, the new one behind it.
      intro other hother last hlast place behind hplace hbehind
      rw [List.mem_singleton] at hlast
      subst hlast
      have hlt := (hthere other hother place hplace).lt_length
      rcases (hcame last behind).mp hbehind with hbehind | ⟨_, rfl⟩
      · exact absurd ((h.entered last).mpr ⟨behind, hbehind⟩) hcolumn
      · exact hlt

/-- Removing a column closes the gap. -/
theorem remove (h : Follows log r) (column : String) :
    Follows (log ++ [.remove column]) (r.remove column).2 := by
  have hcame := cameIn_remove log column
  have hcolumns : (r.remove column).2.columns = r.columns.filter (· ≠ column) := h.closed column
  refine of_order (h.value_apply (.remove column)) ?_ ?_
  · intro other
    rw [hcolumns, List.mem_filter, decide_eq_true_eq, h.entered]
    constructor
    · rintro ⟨⟨place, hplace⟩, hne⟩
      exact ⟨place, (hcame other place).mpr ⟨hne, hplace⟩⟩
    · rintro ⟨place, hplace⟩
      rcases (hcame other place).mp hplace with ⟨hne, hplace⟩
      exact ⟨⟨place, hplace⟩, hne⟩
  · rw [hcolumns]
    refine (h.order.filter _).imp fun {first second} hbefore place behind hfirst hsecond => ?_
    exact hbefore place behind ((hcame first place).mp hfirst).2 ((hcame second behind).mp hsecond).2

/-- One more change keeps a record with its history. -/
theorem apply (h : Follows log r) (change : Change) :
    Follows (log ++ [change]) (change.apply r) := by
  cases change with
  | insert column new =>
      by_cases hcolumn : column ∈ r.columns
      · exact h.insert_held hcolumn new
      · exact h.insert_absent hcolumn new
  | remove column => exact h.remove column

/-- So do any number of changes. -/
theorem after (h : Follows log r) (more : List Change) :
    Follows (log ++ more) (r.after more) := by
  induction more generalizing log r with
  | nil =>
      rw [List.append_nil]
      exact h
  | cons change rest ih =>
      -- The first change belongs to the log for those that follow.
      have hrest := ih (h.apply change)
      rw [List.append_assoc, List.singleton_append] at hrest
      exact hrest

end Follows

/-- The members of an object, set one after the other. -/
def insertions (members : List (String × Json)) : List Change :=
  members.map fun member => .insert member.1 (Scalar.ofJson member.2)

theorem after_insertions (members : List (String × Json)) :
    empty.after (insertions members) =
      ofList (members.map fun member => (member.1, Scalar.ofJson member.2)) := by
  rw [after, insertions, ofList, List.foldl_map, List.foldl_map]
  rfl

/-- Repeated members can be settled before they are set. -/
theorem after_settle (written : List (String × Json)) :
    empty.after (insertions (Keyed.settle written)) = empty.after (insertions written) := by
  rw [after_insertions, after_insertions]
  refine Record.ext ?_
  rw [fields_ofList, fields_ofList, Keyed.map_settle]
  exact Keyed.settle_eq_self _ (Keyed.nodup_settle _)

/-- Objects have a record, and nothing else has one. -/
theorem isSome_ofJson?_iff (value : Json) :
    (ofJson? value).isSome = true ↔ ∃ members, value = .object members := by
  cases value with
  | object members => exact iff_of_true rfl ⟨members, rfl⟩
  | _ => exact iff_of_false nofun nofun

/-- The record of a text is that of its members as they are written. What is no object
    has neither. -/
theorem ofJson?_eq_after {text : String} {value : Json} (h : Json.parse? text = some value) :
    ofJson? value =
      (Json.writtenMembers? text).map fun members => empty.after (insertions members) := by
  rcases Option.bind_eq_some_iff.mp h with ⟨d, hread, hvalue⟩
  rw [Json.writtenMembers?, hread]
  cases Json.Document.valued_of_valueAnyDepth? (Json.Document.valueAnyDepth?_of_value? hvalue) with
  | object written members hmembers =>
      simp only [hmembers, Option.map_some, ofJson?]
      rw [← after_insertions, after_settle]
  | _ => rfl

/-- **A record is an ordered map, whatever happened to it.** Behind every list of
    changes, begun without columns or with the record of a JSON object, it has distinct
    columns with the values they were last set to, in the order in which they came in,
    and the next removal gives back what the record has. Only objects have a record. The
    record of a text is that of setting its members one after the other as they are
    written, so a repeated key stands where it came first and has the value that came
    last. -/
theorem follows_every_log :
    (∀ log : List Change, Follows log (empty.after log)) ∧
      (∀ members : List (String × Json), ∃ start, ofJson? (.object members) = some start ∧
        ∀ log : List Change, Follows (insertions members ++ log) (start.after log)) ∧
      (∀ value : Json, (ofJson? value).isSome = true ↔ ∃ members, value = .object members) ∧
      ∀ (text : String) (value : Json), Json.parse? text = some value →
        ofJson? value =
          (Json.writtenMembers? text).map fun members => empty.after (insertions members) := by
  refine ⟨fun log => Follows.empty.after log, ?_, isSome_ofJson?_iff,
    fun text value h => ofJson?_eq_after h⟩
  intro members
  refine ⟨empty.after (insertions members), ?_, fun log => ?_⟩
  · rw [ofJson?, after_insertions]
  · exact (Follows.empty.after (insertions members)).after log

/-- An object that repeats its first key. Removed and set again, the column comes
    behind the other one, which was set again in between and did not move. -/
theorem follows_every_log_repeated :
    let text := "\x7b\"a\":1,\"b\":2,\"a\":3\x7d"
    let log : List Change := [.remove "a", .insert "b" (.int 4), .insert "a" (.int 5)]
    ∃ read members, Json.parse? text = some read ∧ Json.writtenMembers? text = some members ∧
      members.map (·.1) = ["a", "b", "a"] ∧
      ofJson? read = some (empty.after (insertions members)) ∧
      (empty.after (insertions members)).columns = ["a", "b"] ∧
      Follows (insertions members ++ log) (empty.after (insertions members ++ log)) ∧
      (empty.after (insertions members ++ log)).columns = ["b", "a"] := by
  intro text log
  have hparsed : (Json.parse? text).isSome = true := by decide +kernel
  -- All columns come from one reading of the text.
  have hwritten : (Json.writtenMembers? text).map (fun members => (members.map (·.1),
      (empty.after (insertions members)).columns,
      (empty.after (insertions members ++ log)).columns)) =
        some (["a", "b", "a"], ["a", "b"], ["b", "a"]) := by
    decide +kernel
  rcases Option.isSome_iff_exists.mp hparsed with ⟨read, hread⟩
  rcases Option.map_eq_some_iff.mp hwritten with ⟨members, hmembers, hcolumns⟩
  rw [Prod.mk.injEq, Prod.mk.injEq] at hcolumns
  have hrecord := follows_every_log.2.2.2 text read hread
  rw [hmembers, Option.map_some] at hrecord
  exact ⟨read, members, hread, hmembers, hcolumns.1, hrecord, hcolumns.2.1,
    follows_every_log.1 _, hcolumns.2.2⟩

end Record

end TestbedReport
