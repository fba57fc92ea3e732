import TestbedReport.Proofs.Session.Stored
import TestbedReport.Files.Memory

/-!
# Files in Memory and the Log of a Session

Files in memory change by nothing but what is stored in them, so the log of a
session is all one has to know of it: the files behind the session are the files
before it with the outputs of the log applied in order (`run_files`).

One file is changed by the outputs of its own name only. What it holds is
therefore read off the part of the log that names it (`lookup_foldl_applied`),
and a file that the log does not name is as it was.

Storing the outputs of a report ends with the first that is refused. The log has
the outputs before that one (`stored_storeAll`), whatever the files hold,
because a refusal depends on the name alone.

## Main definitions

* `MemoryFiles.applied`: The files behind one output.
* `MemoryFiles.heldBehind`: What a file holds behind one of its outputs.

## Theorems

* `MemoryFiles.run_files`: The files behind a session.
* `MemoryFiles.lookup_foldl_applied`: What a file holds behind several outputs.
* `MemoryFiles.stored_storeAll`: The outputs before the first refused one.
-/

namespace TestbedReport

namespace MemoryFiles

variable {α : Type} (answer : Request → Answer) (refused : String → Bool)

/-- The files behind an output that was not refused. -/
def applied (files : MemoryFiles) (o : Output) : MemoryFiles :=
  Keyed.put o.file (o.appliedTo (files.content o.file)) files

/-- What a file holds behind one of its outputs. A file that does not exist holds
    nothing before it. -/
def heldBehind (held : Option String) (o : Output) : Option String :=
  some (o.appliedTo (held.getD ""))

/-- The files behind a session are the files before it with the outputs of its
    log applied. -/
theorem run_files (s : Session α) (files : MemoryFiles) :
    (s.run (surroundings answer refused) files).files =
      (s.stored (surroundings answer refused) files).foldl applied files := by
  induction s generalizing files with
  | done value => rfl
  | send request next ih => exact ih (answer request) files
  | store directory output next ih =>
      have hstore : (surroundings answer refused).store directory output files =
          store refused output files := rfl
      rw [Session.run, Session.stored, hstore, store]
      -- A refused output is not in the log and changes no file.
      by_cases h : refused output.file = true
      · rw [if_pos h]
        exact ih _ files
      · rw [if_neg h]
        exact ih _ (applied files output)
  | read path next ih => exact ih (files.read path) files

/-- An output changes what the file of its name holds, and no other. -/
theorem lookup_applied (files : MemoryFiles) (o : Output) (file : String) :
    (applied files o).lookup file =
      if o.file = file then heldBehind (files.lookup file) o else files.lookup file := by
  rw [applied, Keyed.lookup_put]
  by_cases h : o.file = file
  · subst h
    rw [if_pos rfl, beq_self_eq_true]
    rfl
  · rw [if_neg h, beq_eq_false_iff_ne.mpr fun hc => h hc.symm]
    rfl

/-- What a file holds behind several outputs is decided by those of its name. -/
theorem lookup_foldl_applied (log : List Output) (files : MemoryFiles) (file : String) :
    (log.foldl applied files).lookup file =
      (log.filter fun o => o.file = file).foldl heldBehind (files.lookup file) := by
  induction log generalizing files with
  | nil => rfl
  | cons o rest ih =>
      rw [List.foldl_cons, ih, lookup_applied]
      -- An output of another name is passed over on both sides.
      by_cases h : o.file = file
      · have hfilter : (o :: rest).filter (fun o => o.file = file) =
            o :: rest.filter fun o => o.file = file := List.filter_cons_of_pos (by simpa using h)
        rw [if_pos h, hfilter, List.foldl_cons]
      · rw [if_neg h, List.filter_cons_of_neg (by simpa only [decide_eq_true_eq] using h)]

/-- Outputs are stored in order up to the first that is refused. -/
theorem stored_storeAll (directory : String) (outputs : List Output) (files : MemoryFiles) :
    Session.stored (surroundings answer refused) (storeAll directory outputs).run files =
      outputs.takeWhile fun o => !refused o.file := by
  induction outputs generalizing files with
  | nil => rfl
  | cons o rest ih =>
      rw [storeAll, Attempt.stored_write_bind]
      have hstore : (surroundings answer refused).store directory o files =
          store refused o files := rfl
      rw [hstore, store]
      cases h : refused o.file with
      | true =>
          -- The first refusal ends the run, so nothing of the rest is stored.
          have hstop : (o :: rest).takeWhile (fun o => !refused o.file) = [] :=
            List.takeWhile_cons_of_neg (by rw [h]; decide)
          rw [hstop]
          rfl
      | false =>
          have hnext : (o :: rest).takeWhile (fun o => !refused o.file) =
              o :: rest.takeWhile fun o => !refused o.file :=
            List.takeWhile_cons_of_pos (by rw [h]; decide)
          rw [hnext, ← ih (applied files o)]
          exact congrArg (o :: ·) (Attempt.stored_bind_pure _ _ _ _)

end MemoryFiles

end TestbedReport
