import TestbedReport.Proofs.Files.Calls

/-!
# Entries in Directories

A tree is kept as a list of entries, and such a list could have a file without the
directory around it. Trees that come about by calls do not. The tree with nothing in it
has no such entry (`rooted_empty`), and calls only set entries at the end of a walk, which
is a directory, so they leave every entry in one (`rooted_run`).

## Main definitions

* `FileTree.Rooted`: Every entry is in a directory.

## Theorems

* `FileTree.Rooted.find?_lead`: Walks end in directories.
* `FileTree.Rooted.put`: An entry can be set in a directory.
* `StorageCall.rooted_run`: Calls leave every entry in a directory.
-/

namespace TestbedReport

namespace FileTree

open FilePath

variable {t t' : FileTree} {here place : Location}

/-- Whether every entry of a tree is in a directory. -/
def Rooted (t : FileTree) : Prop :=
  ∀ place name, t.find? (place ++ [name]) ≠ none → t.find? place = some .directory

theorem rooted_empty : Rooted empty := by
  intro place name h
  rw [find?, if_neg (List.append_ne_nil_of_right_ne_nil _ (List.cons_ne_nil _ _))] at h
  exact absurd rfl h

/-- Paths start from a directory if relative paths do. -/
theorem find?_origin (path : FilePath) (h : t.find? here = some .directory) :
    t.find? (origin here path) = some .directory := by
  rw [origin]
  split
  · rfl
  · exact h

namespace Rooted

/-- Around a directory is a directory. The root is around itself. -/
theorem find?_dropLast (h : Rooted t) (hhere : t.find? here = some .directory) :
    t.find? here.dropLast = some .directory := by
  rcases List.eq_nil_or_concat here with rfl | ⟨place, name, rfl⟩
  · exact hhere
  · rw [List.concat_eq_append] at hhere ⊢
    rw [List.dropLast_concat]
    exact h place name fun hnone => nomatch hnone.symm.trans hhere

/-- A walk through directories ends in one. -/
theorem find?_lead (h : Rooted t) {steps : List PathStep}
    (hhere : t.find? here = some .directory) (hall : ∀ p ∈ way here steps, t.Enterable p) :
    t.find? (lead here steps) = some .directory := by
  induction steps generalizing here with
  | nil => exact hhere
  | cons step rest ih =>
      cases step with
      -- The directory above one is one, since the tree is rooted.
      | up => exact ih (h.find?_dropLast hhere) hall
      | down name =>
          rw [way, List.forall_mem_cons] at hall
          exact ih hall.1.2 hall.2

/-- An entry can be set in a directory, in the place of none and of a file. -/
theorem put (h : Rooted t) {name : String} {node : Node}
    (hhere : t.find? here = some .directory)
    (hfree : t.find? (here ++ [name]) ≠ some .directory) :
    Rooted (t.put (here ++ [name]) node) := by
  intro place other hother
  have hplace : t.find? place = some .directory := by
    by_cases heq : place ++ [other] = here ++ [name]
    · rw [(List.append_inj' heq rfl).1]
      exact hhere
    · rw [find?_put_of_ne heq] at hother
      exact h place other hother
  -- What is set does not take the place of a directory.
  have hne : place ≠ here ++ [name] := by
    rintro rfl
    exact hfree hplace
  exact (find?_put_of_ne hne).trans hplace

theorem makeDirectory (h : Rooted t) {before : List PathStep} {last : PathStep}
    (hhere : t.find? here = some .directory)
    (hmade : t.makeDirectory here before last = .ok t') : Rooted t' := by
  rcases of_makeDirectory hmade with ⟨hall, name, rfl, -, hnone, rfl⟩
  exact h.put (h.find?_lead hhere hall) fun hfind => nomatch hnone.symm.trans hfind

theorem makeAll (h : Rooted t) {reversed : List PathStep}
    (hhere : t.find? here = some .directory) : Rooted (makeAll here reversed t).2 := by
  fun_induction FileTree.makeAll here reversed t with
  | case1 t => exact h
  | case2 last before t t' hmade => exact h.makeDirectory hhere hmade
  | case3 last before t _ fault t' hall ih =>
      rw [hall] at ih
      exact ih h hhere
  -- The directory is made behind those on its way, which have left `here` alone.
  | case4 last before t _ t' hall t'' hmade ih =>
      have hgrown := grown_makeAll here before t
      rw [hall] at ih hgrown
      exact (ih h hhere).makeDirectory ((hgrown here).find?_eq_some hhere) hmade
  | case5 last before t _ t' hall fault _ ih =>
      rw [hall] at ih
      exact ih h hhere
  | case6 last before t fault _ _ => exact h

/-- Storing a file leaves every entry in a directory, also where it fails. -/
theorem store (h : Rooted t) (hhere : t.find? here = some .directory) (text : String)
    (mode : WriteMode) (bytes : List UInt8) : Rooted (t.store here text mode bytes).2 := by
  have horigin := find?_origin (ofText text) hhere
  have hmade : Rooted (t.made here text) := h.makeAll horigin
  rcases store_cases t here text mode bytes with
    ⟨-, -, hsame | hfailed⟩ | ⟨hstorable, hall, hok⟩
  · rwa [hsame]
  · rwa [hfailed]
  · -- The new file lies in the directory that its path names, which is there by now.
    rcases of_target (hstorable.target hall) with ⟨⟨name, hending, -⟩, -, hfree, -⟩
    rw [place_of_ending here hending] at hok hfree
    rw [hok]
    refine hmade.put (hmade.find?_lead ?_ hall) hfree
    exact (grown_made t here text _).find?_eq_some horigin

end Rooted

end FileTree

namespace StorageCall

variable {base : String} {here : Location} {t : FileTree}

/-- **Calls leave every entry in a directory.** -/
theorem rooted_run (calls : List StorageCall) (h : t.Rooted)
    (hhere : t.find? here = some .directory) : (run base here t calls).Rooted := by
  induction calls generalizing t with
  | nil => exact h
  | cons c rest ih =>
      rw [run_cons]
      refine ih (h.store hhere _ _ _) ?_
      exact find?_run_of_directory [c] hhere

end StorageCall

end TestbedReport
