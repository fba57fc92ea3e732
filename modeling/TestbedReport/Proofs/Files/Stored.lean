import TestbedReport.Proofs.Files.Way

/-!
# Files Stored in a Tree

A call to store bytes makes directories first and opens a file last, and between the two
it can stop for many reasons. The file is set only where everything else has worked. So
there are three trees that a call can leave: the one it was given, that one with the
directories made as far as they can be, and this again with the file (`store_cases`).

Whether a call succeeds can be read off the path and the tree before it (`Storable`). Two
of the conditions are easily missed. A name that is left again by two dots must be that of
a directory all the same, so a file on the way is in the way even if nothing is stored
below it. And the path must not pass the place of its own file: where nothing has the
name `a`, the path `a/../a` has a directory made in the place of the file.

## Main definitions

* `FilePath.place`, `FilePath.around`: Where a path leads, and past which directories.
* `FileTree.Storable`: What it takes for bytes to be stored.
* `FileTree.made`: The tree with the directories of a path.

## Theorems

* `FilePath.steps_of_ending`: A path to a name ends with a step down to it.
* `FileTree.of_target`: Where a file is opened.
* `FileTree.store_cases`: What a call leaves.
* `FileTree.store_ok_iff`: When a call succeeds.
* `FileTree.read_of_enterable`: What a file holds is read through its path.
-/

namespace TestbedReport

namespace FilePath

/-- The place that a path leads to from a directory. -/
def place (here : Location) (text : String) : Location :=
  lead (FileTree.origin here (ofText text)) (ofText text).steps

/-- Paths that are written differently can lead to the same place. -/
example : place ["b"] "./a" = ["b", "a"] ∧ place ["b"] "x/../a" = ["b", "a"] := by
  decide

/-- The places of the directories that a path leads through to what it ends in. -/
def around (here : Location) (text : String) : List Location :=
  way (FileTree.origin here (ofText text)) (ofText text).parent

/-- A path that ends in a name has a last part, which is a step down to it. -/
theorem getLast?_of_ending {text name : String} (h : (ofText text).ending = .name name) :
    ∃ front last, stepOf? last = some (.down name) ∧
      ((Text.splitOn '/' text.toList).filter (!·.isEmpty)).map String.ofList =
        front ++ [last] := by
  simp only [ofText] at h
  -- Of all endings of a path only one is a name, so only one case goes on.
  split at h
  · exact nomatch h
  · next last hlast =>
    rcases List.getLast?_eq_some_iff.mp hlast with ⟨front, hparts⟩
    split at h
    · next found hstep =>
      split at h
      · exact nomatch h
      · rw [PathEnding.name.inj h] at hstep
        exact ⟨front, last, hstep, hparts⟩
    · exact nomatch h

/-- The last step of a path that ends in a name leads to it. -/
theorem steps_of_ending {text name : String} (h : (ofText text).ending = .name name) :
    (ofText text).steps = (ofText text).parent ++ [.down name] := by
  rcases getLast?_of_ending h with ⟨front, last, hstep, hparts⟩
  have hsteps : (ofText text).steps = front.filterMap stepOf? ++ [.down name] := by
    simp only [ofText, hparts, List.filterMap_append, List.filterMap_cons, hstep,
      List.filterMap_nil]
  rw [parent, hsteps, List.dropLast_concat]

theorem trimReversed_suffix (cs : List Char) : trimReversed cs <:+ cs := by
  fun_induction trimReversed cs with
  | case1 rest ih => exact ih.trans (List.suffix_cons _ _)
  | case2 rest ih => exact (ih.trans (List.suffix_cons _ _)).trans (List.suffix_cons _ _)
  | case3 cs _ _ => exact List.suffix_refl cs

/-- The path of a directory is not longer than that of what is in it. -/
theorem parentText_size_le (text : String) :
    (parentText text).utf8ByteSize ≤ text.utf8ByteSize := by
  have hsuffix : trimReversed ((trimReversed text.toList.reverse).dropWhile (· ≠ '/')) <:+
      text.toList.reverse :=
    (trimReversed_suffix _).trans ((List.dropWhile_suffix _).trans (trimReversed_suffix _))
  rcases hsuffix with ⟨rest, hrest⟩
  -- What was cut off, put behind the rest again, is the whole path.
  have htext : parentText text ++ String.ofList rest.reverse = text := by
    rw [parentText, ← String.ofList_append, ← List.reverse_append, hrest, List.reverse_reverse,
      String.ofList_toList]
  calc (parentText text).utf8ByteSize
      ≤ (parentText text ++ String.ofList rest.reverse).utf8ByteSize := by
        rw [String.utf8ByteSize_append]
        exact Nat.le_add_right _ _
    _ = text.utf8ByteSize := congrArg String.utf8ByteSize htext

/-- The place of a path that ends in a name has it below the directories around it. -/
theorem place_of_ending {text name : String} (here : Location)
    (h : (ofText text).ending = .name name) :
    place here text =
      lead (FileTree.origin here (ofText text)) (ofText text).parent ++ [name] := by
  rw [place, steps_of_ending h, lead_append]
  rfl

/-- What no step of a path is, no step to the directory around it is. -/
theorem parent_any {text : String} {p : PathStep → Bool} (h : (ofText text).steps.any p = false) :
    (ofText text).parent.any p = false := by
  rw [List.any_eq_false] at h ⊢
  exact fun step hstep => h step (List.dropLast_subset _ hstep)

end FilePath

namespace FileTree

open FilePath

variable {t : FileTree} {here : Location} {text : String} {mode : WriteMode}
  {bytes : List UInt8}

/-- What it takes for bytes to be stored under a path. The system can be told the path,
    and it ends in a name that a file can have. On the way there is no file and no name
    that is too long. The place of the file is no directory, and the way does not pass it,
    or it would be made one. -/
structure Storable (t : FileTree) (here : Location) (text : String) : Prop where
  no_nul : (ofText text).steps.any hasNul = false
  short : text.utf8ByteSize < pathLimit
  ends_in_name : ∃ name, (ofText text).ending = .name name ∧ name.utf8ByteSize ≤ maxNameSize
  passable : ∀ p ∈ around here text, t.Passable p
  not_passed : FilePath.place here text ∉ around here text
  no_directory : t.find? (FilePath.place here text) ≠ some .directory

theorem Storable.nonempty (h : t.Storable here text) : text ≠ "" := by
  rintro rfl
  rcases h.ends_in_name with ⟨name, hending, -⟩
  exact nomatch hending

/-- A file that is set at the place of such a path is there. -/
theorem Storable.find?_put (h : t.Storable here text) (t' : FileTree) (node : Node) :
    (t'.put (FilePath.place here text) node).find? (FilePath.place here text) = some node := by
  rcases h.ends_in_name with ⟨name, hending, -⟩
  rw [place_of_ending here hending]
  exact find?_put_append t' _ name node

/-- A file can be opened below directories that are there, where no directory is. -/
theorem target_of_enterable {name : String} (hending : (ofText text).ending = .name name)
    (hname : name.utf8ByteSize ≤ maxNameSize) (hall : ∀ p ∈ around here text, t.Enterable p)
    (hfree : t.find? (FilePath.place here text) ≠ some .directory) :
    t.target (origin here (ofText text)) (ofText text) = .ok (FilePath.place here text) := by
  rw [place_of_ending here hending] at hfree ⊢
  rw [target, hending]
  simp only [bind, Except.bind, walk_of_enterable hall,
    child_of_named ((named_append _ _).mpr hname)]
  rfl

/-- A file that is opened is at the place of its path, in directories, and is none
    itself. -/
theorem of_target {place : Location}
    (h : t.target (origin here (ofText text)) (ofText text) = .ok place) :
    (∃ name, (ofText text).ending = .name name ∧ name.utf8ByteSize ≤ maxNameSize) ∧
      (∀ p ∈ around here text, t.Enterable p) ∧
      t.find? (FilePath.place here text) ≠ some .directory ∧
      FilePath.place here text = place := by
  rw [target] at h
  -- A path that can only mean a directory opens nothing, wherever it leads.
  cases hending : (ofText text).ending with
  | dots =>
      rw [hending] at h
      rcases hwalk : t.walk (origin here (ofText text)) (ofText text).steps with _ | _ <;>
        exact nomatch hwalk ▸ h
  | slash =>
      rw [hending] at h
      rcases hwalk : t.walk (origin here (ofText text)) (ofText text).parent with _ | _ <;>
        exact nomatch hwalk ▸ h
  | name name =>
      rw [hending] at h
      rw [place_of_ending here hending]
      rcases hwalk : t.walk (origin here (ofText text)) (ofText text).parent with fault | parent
      · exact nomatch hwalk ▸ h
      · rcases walk_eq_ok_iff.mp hwalk with ⟨hall, rfl⟩
        by_cases hname : Named (lead (origin here (ofText text)) (ofText text).parent ++ [name])
        · simp only [bind, Except.bind, hwalk, child_of_named hname] at h
          split at h
          · exact nomatch h
          · next hfree =>
            exact ⟨⟨name, rfl, (named_append _ _).mp hname⟩, hall, hfree, Except.ok.inj h⟩
        · simp only [bind, Except.bind, hwalk, child_of_not_named hname] at h
          exact nomatch h

/-- A place that has not become a directory has the entry it had. -/
theorem Stays.contentBefore_eq {made : List Location} {t' : FileTree} {place : Location}
    (h : Stays made t t' place) (hfree : t'.find? place ≠ some .directory) :
    t'.contentBefore mode place = t.contentBefore mode place := by
  rcases h with heq | ⟨-, hdirectory, -⟩
  · simp only [contentBefore, heq]
  · exact absurd hdirectory hfree

/-- The tree behind the directories of a path, as far as they can be made. -/
def made (t : FileTree) (here : Location) (text : String) : FileTree :=
  (makeAll (origin here (ofText text)) (ofText text).parent.reverse t).2

theorem grown_made (t : FileTree) (here : Location) (text : String) :
    Grown (around here text) t (t.made here text) := by
  have h := grown_makeAll (origin here (ofText text)) (ofText text).parent.reverse t
  rwa [List.reverse_reverse] at h

/-- Where bytes can be stored, the file can be opened once the directories are made. -/
theorem Storable.target (h : t.Storable here text)
    (hall : ∀ p ∈ around here text, (t.made here text).Enterable p) :
    (t.made here text).target (origin here (ofText text)) (ofText text) =
      .ok (FilePath.place here text) := by
  rcases h.ends_in_name with ⟨name, hending, hname⟩
  refine target_of_enterable hending hname hall fun hdirectory => ?_
  rcases grown_made t here text (FilePath.place here text) with heq | ⟨-, -, hmem⟩
  · exact h.no_directory (heq.symm.trans hdirectory)
  · exact h.not_passed hmem

/-- Where the file can be opened, bytes can be stored. -/
theorem storable_of_target {place : Location} (hnul : (ofText text).steps.any hasNul = false)
    (hshort : text.utf8ByteSize < pathLimit)
    (h : (t.made here text).target (origin here (ofText text)) (ofText text) = .ok place) :
    t.Storable here text := by
  have hgrown := grown_made t here text
  rcases of_target h with ⟨hending, hall, hfree, -⟩
  -- The directories that were made on the way are none of the obstacles.
  exact {
    no_nul := hnul
    short := hshort
    ends_in_name := hending
    passable := fun p hp => (hgrown.passable_iff p).mp (hall p hp).passable
    not_passed := fun hmem => hfree (hall _ hmem).2
    no_directory := fun hdirectory => hfree ((hgrown _).find?_eq_some hdirectory) }

/-- **The two outcomes of a call.** One that fails has changed nothing or has made
    directories. One that succeeds has made those that were missing and has then set the
    file. -/
theorem store_cases (t : FileTree) (here : Location) (text : String) (mode : WriteMode)
    (bytes : List UInt8) :
    (¬t.Storable here text ∧ (∃ fault, (t.store here text mode bytes).1 = .error fault) ∧
        ((t.store here text mode bytes).2 = t ∨
          (t.store here text mode bytes).2 = t.made here text)) ∨
      t.Storable here text ∧ (∀ p ∈ around here text, (t.made here text).Enterable p) ∧
        t.store here text mode bytes = (.ok (), (t.made here text).put (FilePath.place here text)
          (.file (t.contentBefore mode (FilePath.place here text) ++ bytes))) := by
  have hpass : (makeAll (origin here (ofText text)) (ofText text).parent.reverse t).1 = .ok () ↔
      ∀ p ∈ around here text, t.Passable p := by
    rw [makeAll_ok_iff, List.reverse_reverse, around]
  rw [store]
  -- A path that cannot be told the system at all is refused before anything is made.
  split
  · next hnul =>
    refine .inl ⟨fun h => ?_, ⟨_, rfl⟩, .inl rfl⟩
    rw [parent_any h.no_nul] at hnul
    exact nomatch hnul
  split
  · next hlong =>
    refine .inl ⟨fun h => ?_, ⟨_, rfl⟩, .inl rfl⟩
    exact absurd h.short (Nat.not_lt.mpr (Nat.le_trans hlong (parentText_size_le text)))
  split
  · next fault grown hmade =>
    rw [hmade] at hpass
    refine .inl ⟨fun h => (nomatch hpass.mpr h.passable), ⟨_, rfl⟩, .inr ?_⟩
    rw [made, hmade]
  next grown hmade =>
  -- All that is left works on the tree with the directories.
  obtain rfl : t.made here text = grown := congrArg Prod.snd hmade
  have hall : ∀ p ∈ around here text, (t.made here text).Enterable p := by
    have h := enterable_of_makeAll (congrArg Prod.fst hmade)
    rwa [List.reverse_reverse] at h
  split
  · next hnul =>
    refine .inl ⟨fun h => ?_, ⟨_, rfl⟩, .inr rfl⟩
    rw [h.no_nul] at hnul
    exact nomatch hnul
  next hnul =>
  split
  · next hempty =>
    exact .inl ⟨fun h => h.nonempty (String.isEmpty_iff.mp hempty), ⟨_, rfl⟩, .inr rfl⟩
  split
  · next hlong =>
    exact .inl ⟨fun h => absurd h.short (Nat.not_lt.mpr hlong), ⟨_, rfl⟩, .inr rfl⟩
  next hshort =>
  split
  · next fault htarget =>
    refine .inl ⟨fun h => ?_, ⟨_, rfl⟩, .inr rfl⟩
    exact nomatch htarget.symm.trans (h.target hall)
  · next place htarget =>
    have h := storable_of_target (Bool.eq_false_iff.mpr hnul) (Nat.lt_of_not_le hshort) htarget
    rcases of_target htarget with ⟨-, -, hfree, rfl⟩
    refine .inr ⟨h, hall, ?_⟩
    rw [(grown_made t here text _).contentBefore_eq hfree]

/-- A call succeeds exactly where bytes can be stored. -/
theorem store_ok_iff : (t.store here text mode bytes).1 = .ok () ↔ t.Storable here text := by
  rcases store_cases t here text mode bytes with ⟨hnot, ⟨fault, hfault⟩, -⟩ | ⟨h, -, hok⟩
  · rw [hfault]
    exact iff_of_false (fun h => nomatch h) hnot
  · rw [hok]
    exact iff_of_true rfl h

/-- The way to a file does not lead back to its own place. -/
example : (empty.store [] "a/../a" .truncate []).1 = .error .isDirectory :=
  rfl

/-- What the file at the place of a path holds is read through the path. -/
theorem read_of_enterable {content : List UInt8} (h : t.Storable here text)
    {t' : FileTree} (hall : ∀ p ∈ around here text, t'.Enterable p)
    (hfile : t'.find? (FilePath.place here text) = some (.file content)) :
    t'.read here text = .ok content := by
  have hempty : ¬text.isEmpty = true := fun hempty => h.nonempty (String.isEmpty_iff.mp hempty)
  rcases h.ends_in_name with ⟨name, hending, hname⟩
  rw [place_of_ending here hending] at hfile
  simp only [read, h.no_nul, Bool.false_eq_true, hempty, Nat.not_le.mpr h.short, if_false,
    hending, bind, Except.bind, walk_of_enterable hall,
    child_of_named ((named_append _ _).mpr hname), hfile]
  rfl

end FileTree

end TestbedReport
