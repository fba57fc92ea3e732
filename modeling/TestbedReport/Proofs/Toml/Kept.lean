import TestbedReport.Toml.Document

/-!
# What a Document Has Said Stays

The lines of a document build its tables up one after the other, and no line can
take back what an earlier one said. A text under a key is not replaced, moved or
hidden by anything that follows, however the lines go on, as long as the document
is accepted at all.

The text is followed down from the root: it stands at the end of a path of keys,
in tables that have headers of their own (`TextAt`). All changes to a document are
made by one function that walks a path of its own and changes the table at its
end. Where the two paths part, the change does not come near the text. Where they
go together, the walk puts the table back with its header still on it. So a walk
keeps all texts if the change at its end does (`reach?_keeps`), and the changes
there only put a value under a key that was free or that led to other tables.

## Main definitions

* `Toml.TextAt`: A text at the end of a path of tables with headers.
* `Toml.Change.Keeps`: A change that keeps all texts.

## Theorems

* `Toml.reach?_cons`: One step on the way to a change.
* `Toml.reach?_keeps`: A change somewhere in a document keeps all texts.
* `Toml.lines?_keeps`: The lines of a document keep a text.
-/

namespace TestbedReport

namespace Toml

/-- Whether a text stands at the end of a path of keys, in tables that all have
    headers of their own. -/
def TextAt (text : String) : List String → Members → Prop
  | [], _ => False
  | [key], members => members.lookup key = some (.text text)
  | key :: next :: path, members =>
    ∃ inner, members.lookup key = some (.table .header inner) ∧ TextAt text (next :: path) inner

/-- Whether there is nothing under a key, or something that leads to other tables
    only. -/
def IsOpen : Option Toml → Prop
  | none => True
  | some (.table .implied _) => True
  | some (.tables _ _) => True
  | some _ => False

/-- Whether a change leaves the origin of a table and keeps all texts below it. -/
def Change.Keeps (change : Change) : Prop :=
  ∀ origin members after left, change origin members = some (after, left) →
    after = origin ∧ ∀ text place, TextAt text place members → TextAt text place left

/-- A value under another key is not changed by setting one. -/
theorem lookup_put_of_ne {key other : String} (h : other ≠ key) (value : Toml)
    (members : Members) : (Keyed.put key value members).lookup other = members.lookup other := by
  rw [Keyed.lookup_put, if_neg (fun heq => h (eq_of_beq heq))]

/-- A text stays if a value is set under a key that is open. -/
theorem TextAt.put_of_isOpen {text : String} {place : List String} {members : Members}
    (h : TextAt text place members) {key : String} (hopen : IsOpen (members.lookup key))
    (value : Toml) : TextAt text place (Keyed.put key value members) := by
  -- The path begins with a text or a table with a header, so it begins with another key.
  match place, h with
  | [own], h =>
      have hne : own ≠ key := by
        rintro rfl
        rw [TextAt] at h
        rw [h] at hopen
        exact hopen
      rw [TextAt, lookup_put_of_ne hne]
      exact h
  | own :: next :: path, ⟨inner, hinner, htext⟩ =>
      have hne : own ≠ key := by
        rintro rfl
        rw [hinner] at hopen
        exact hopen
      exact ⟨inner, (lookup_put_of_ne hne value members).trans hinner, htext⟩

/-- On the way to a change one value is set: under a key that is open, or in place of
    the table under it with the change made inside. -/
theorem reach?_cons {dotted : Bool} {change : Change} {key : String} {path : List String}
    {origin after : TableOrigin} {members left : Members}
    (h : reach? dotted change (key :: path) origin members = some (after, left)) :
    after = origin ∧ ∃ child, left = Keyed.put key child members ∧
      (IsOpen (members.lookup key) ∨ ∃ inside inner kept grown,
        members.lookup key = some (.table inside inner) ∧
          reach? dotted change path inside inner = some (kept, grown) ∧
          child = .table kept grown) := by
  have hset : ∀ child, some (origin, Keyed.put key child members) = some (after, left) →
      after = origin ∧ left = Keyed.put key child members := by
    intro child hchild
    rw [Option.some.injEq, Prod.mk.injEq] at hchild
    exact ⟨hchild.1.symm, hchild.2.symm⟩
  -- There is nothing under the key, a table, an array of tables, or something else.
  rw [reach?] at h
  split at h
  · next hnone =>
    rcases Option.bind_eq_some_iff.mp h with ⟨⟨kept, grown⟩, _, hchild⟩
    rcases hset _ hchild with ⟨horigin, hleft⟩
    exact ⟨horigin, _, hleft, Or.inl (by rw [hnone]; trivial)⟩
  · next inside inner hinner =>
    split at h
    · exact nomatch h
    · rcases Option.bind_eq_some_iff.mp h with ⟨⟨kept, grown⟩, hreach, hchild⟩
      rcases hset _ hchild with ⟨horigin, hleft⟩
      exact ⟨horigin, _, hleft, Or.inr ⟨inside, inner, kept, grown, hinner, hreach, rfl⟩⟩
  · next before last hlast =>
    rcases Option.bind_eq_some_iff.mp h with ⟨⟨kept, grown⟩, _, hchild⟩
    rcases hset _ hchild with ⟨horigin, hleft⟩
    exact ⟨horigin, _, hleft, Or.inl (by rw [hlast]; trivial)⟩
  · exact nomatch h

/-- A text stays if a table that keeps it is put back with its header. -/
theorem TextAt.put_of_table {text : String} {place : List String} {members : Members}
    (h : TextAt text place members) {key : String} {origin : TableOrigin} {inner grown : Members}
    (hinner : members.lookup key = some (.table origin inner))
    (hgrown : ∀ place, TextAt text place inner → TextAt text place grown) :
    TextAt text place (Keyed.put key (.table origin grown) members) := by
  match place, h with
  | [own], h =>
      rw [TextAt] at h
      have hne : own ≠ key := by
        rintro rfl
        rw [h] at hinner
        exact nomatch hinner
      rw [TextAt, lookup_put_of_ne hne]
      exact h
  | own :: next :: path, ⟨others, hothers, htext⟩ =>
      by_cases hown : own = key
      · -- The place leads through the table that is put back.
        subst hown
        rw [hothers, Option.some.injEq, Toml.table.injEq] at hinner
        rcases hinner with ⟨rfl, rfl⟩
        refine ⟨grown, ?_, hgrown (next :: path) htext⟩
        rw [Keyed.lookup_put, beq_self_eq_true, if_pos rfl]
      · exact ⟨others, (lookup_put_of_ne hown _ members).trans hothers, htext⟩

/-- A change somewhere in a document keeps all texts if it does where it is made. -/
theorem reach?_keeps (dotted : Bool) {change : Change} (hchange : change.Keeps)
    (path : List String) : Change.Keeps (reach? dotted change path) := by
  -- The induction is on the way to the change, and the text is any below its start.
  induction path with
  | nil => exact hchange
  | cons key path ih =>
      intro origin members after left h
      rcases reach?_cons h with ⟨horigin, child, rfl, hopen | hinside⟩
      · exact ⟨horigin, fun text place htext => htext.put_of_isOpen hopen child⟩
      · rcases hinside with ⟨inside, inner, kept, grown, hinner, hreach, rfl⟩
        rcases ih inside inner kept grown hreach with ⟨rfl, hgrown⟩
        exact ⟨horigin, fun text place htext => htext.put_of_table hinner (hgrown text)⟩

/-- A change that only sets a value under a key that is open keeps all texts. -/
theorem Change.keeps_of_put {change : Change}
    (h : ∀ origin members, change origin members = none ∨ ∃ key value,
      IsOpen (members.lookup key) ∧
        change origin members = some (origin, Keyed.put key value members)) : change.Keeps := by
  intro origin members after left hchange
  rcases h origin members with hnone | ⟨key, value, hopen, hput⟩
  · rw [hnone] at hchange
    exact nomatch hchange
  · rw [hput, Option.some.injEq, Prod.mk.injEq] at hchange
    rcases hchange with ⟨rfl, rfl⟩
    exact ⟨rfl, fun text place htext => htext.put_of_isOpen hopen value⟩

theorem setMember_keeps (isDotted : Bool) (key : String) (value : Toml) :
    Change.Keeps (setMember isDotted key value) := by
  refine Change.keeps_of_put fun origin members => ?_
  rw [setMember]
  split
  · next hfree =>
    have hnone : members.lookup key = none := Option.isNone_iff_eq_none.mp hfree.2
    exact Or.inr ⟨key, value, by rw [hnone]; trivial, rfl⟩
  · exact Or.inl rfl

section Documents

variable {text : String} {place : List String} {root grown : Members}

/-- A value under a dotted key leaves all texts where they are. -/
theorem assign?_keeps {path front : List String} {key : String} {value : Toml}
    (h : assign? path front key value root = some grown) (htext : TextAt text place root) :
    TextAt text place grown := by
  rcases Option.map_eq_some_iff.mp h with ⟨⟨after, left⟩, hreach, rfl⟩
  have hkeeps := reach?_keeps false
    (reach?_keeps true (setMember_keeps (!front.isEmpty) key value) front) path
  exact (hkeeps .header root after left hreach).2 text place htext

/-- A header of a table leaves all texts where they are. -/
theorem openTable?_keeps {front : List String} {key : String}
    (h : openTable? front key root = some grown) (htext : TextAt text place root) :
    TextAt text place grown := by
  rcases Option.map_eq_some_iff.mp h with ⟨⟨after, left⟩, hreach, rfl⟩
  refine (reach?_keeps false (Change.keeps_of_put fun origin members => ?_) front .header root
    after left hreach).2 text place htext
  split
  · next hnone => exact Or.inr ⟨key, _, by rw [hnone]; trivial, rfl⟩
  · next inner hinner => exact Or.inr ⟨key, _, by rw [hinner]; trivial, rfl⟩
  · exact Or.inl rfl

/-- A header of an item leaves all texts where they are. -/
theorem openItem?_keeps {front : List String} {key : String}
    (h : openItem? front key root = some grown) (htext : TextAt text place root) :
    TextAt text place grown := by
  rcases Option.map_eq_some_iff.mp h with ⟨⟨after, left⟩, hreach, rfl⟩
  refine (reach?_keeps false (Change.keeps_of_put fun origin members => ?_) front .header root
    after left hreach).2 text place htext
  split
  · next hnone => exact Or.inr ⟨key, _, by rw [hnone]; trivial, rfl⟩
  · next before last hlast => exact Or.inr ⟨key, _, by rw [hlast]; trivial, rfl⟩
  · exact Or.inl rfl

/-- Lines leave all texts where they are, whatever the lines are. -/
theorem lines?_keeps {bound : Nat} {path : List String} {cs : List Char}
    (h : lines? bound path root cs = some grown) (htext : TextAt text place root) :
    TextAt text place grown := by
  induction bound generalizing path root cs with
  | zero => exact nomatch h
  | succ bound ih =>
      -- What comes next is the end, a header, an empty line or an assignment.
      rw [lines?] at h
      split at h
      · rw [Option.some.injEq] at h
        exact h ▸ htext
      · rcases Option.bind_eq_some_iff.mp h with ⟨⟨front, key, isItem, rest⟩, _, hopened⟩
        simp only at hopened
        split at hopened
        · rcases Option.bind_eq_some_iff.mp hopened with ⟨opened, hitem, hrest⟩
          exact ih hrest (openItem?_keeps hitem htext)
        · rcases Option.bind_eq_some_iff.mp hopened with ⟨opened, htable, hrest⟩
          exact ih hrest (openTable?_keeps htable htext)
      · split at h
        · exact ih h htext
        · rcases Option.bind_eq_some_iff.mp h with ⟨⟨front, key, value, rest⟩, _, hassigned⟩
          rcases Option.bind_eq_some_iff.mp hassigned with ⟨assigned, hassign, hrest⟩
          exact ih hrest (assign?_keeps hassign htext)

end Documents

end Toml

end TestbedReport
