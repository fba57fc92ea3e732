import TestbedReport.Report.Run

/-!
# What a Session Stored

A run says at its end what it stored, or why it failed. If it failed, it does not
say what it stored before. `Session.stored` does: it is the log of a run, kept by
the world, of all outputs that were not refused. What a run did to the files can
then be told from its log, and what a run puts into its log can be told without
looking at any files.

A report asks the server first and stores last. `Session.Asking` is the first
half of that, a session that only asks. Such a session leaves the files alone,
and what it comes to does not depend on them. So the log of a whole report is the
log of its last step, or nothing if it does not get that far.

## Main definitions

* `Session.stored`: The outputs that were stored during a session.
* `Session.Asking`: A session that asks and does nothing else.

## Theorems

* `Session.stored_bind`: The log of two sessions in a row.
* `Session.Asking.run_files`: Asking leaves the files alone.
* `Attempt.run_bind_eq`: An attempt that goes on with another.
* `Client.asking_exchange`: The client only asks.
* `ReportSteps.stored_run`: The log of a report.
-/

namespace TestbedReport

namespace Session

variable {α β σ : Type}

/-- The outputs that were stored during a session, in order. A refused output is
    not among them. -/
def stored (world : Surroundings σ) : Session α → σ → List Output
  | .done _, _ => []
  | .send request next, files => (next (world.answer request)).stored world files
  | .store directory output next, files =>
    match world.store directory output files with
    | (.ok (), after) => output :: (next (.ok ())).stored world after
    | (.error fault, after) => (next (.error fault)).stored world after
  | .read path next, files => (next (world.read path files)).stored world files

/-- The log of two sessions in a row is one log after the other. -/
theorem stored_bind (world : Surroundings σ) (s : Session α) (f : α → Session β) (files : σ) :
    (s.bind f).stored world files =
      s.stored world files ++
        (f (s.run world files).value).stored world (s.run world files).files := by
  induction s generalizing files with
  | done value => rfl
  | send request next ih => exact ih (world.answer request) files
  | store directory output next ih =>
      rw [Session.bind, stored, stored, run]
      rcases world.store directory output files with ⟨result, after⟩
      -- Only what was stored is in the log, so a fault adds nothing to it.
      cases result with
      | error fault => exact ih (.error fault) after
      | ok done =>
          simp only [ih, List.cons_append]
  | read path next ih => exact ih (world.read path files) files

/-- A session that asks the server and does nothing else. -/
inductive Asking : Session α → Prop where
  | done (value : α) : Asking (.done value)
  | send (request : Request) (next : Answer → Session α) (h : ∀ answer, Asking (next answer)) :
      Asking (.send request next)

namespace Asking

/-- Two sessions in a row only ask if each of them does. -/
theorem bind {s : Session α} {f : α → Session β} (hs : Asking s) (hf : ∀ value, Asking (f value)) :
    Asking (s.bind f) := by
  induction hs with
  | done value => exact hf value
  | send request next _ ih => exact Asking.send request _ ih

/-- Asking leaves the files alone. -/
theorem run_files {s : Session α} (h : Asking s) (world : Surroundings σ) (files : σ) :
    (s.run world files).files = files := by
  induction h with
  | done value => rfl
  | send request next _ ih => exact ih (world.answer request)

/-- Asking stores nothing. -/
theorem stored_eq_nil {s : Session α} (h : Asking s) (world : Surroundings σ) (files : σ) :
    s.stored world files = [] := by
  induction h with
  | done value => rfl
  | send request next _ ih => exact ih (world.answer request)

end Asking

end Session

section Attempts

variable {α β σ : Type}

/-- An attempt that goes on with another is a session whose continuation passes
    failures through. -/
theorem Attempt.run_bind (x : Attempt α) (f : α → Attempt β) :
    (x >>= f).run = x.run.bind (ExceptT.bindCont f) :=
  rfl

/-- An attempt that goes on with another: the requests of both, unless the first one
    fails. -/
theorem Attempt.run_bind_eq (x : Attempt α) (f : α → Attempt β) (world : Surroundings σ)
    (files : σ) :
    Session.run world (x >>= f).run files =
      let first := Session.run world x.run files
      match first.value with
      | .error stop => ⟨.error stop, first.requests, first.files⟩
      | .ok value =>
        let second := Session.run world (f value).run first.files
        { second with requests := first.requests ++ second.requests } := by
  rw [Attempt.run_bind, Session.run_bind]
  simp only
  cases (Session.run world x.run files).value with
  | error stop =>
      -- A failure is passed through by a session that is finished at once.
      simp only [ExceptT.bindCont]
      exact congrArg (Trace.mk _ · _) (List.append_nil _)
  | ok value => rfl

/-- An attempt that goes on with another only asks if both do. -/
theorem Attempt.asking_bind {x : Attempt α} {f : α → Attempt β} (hx : Session.Asking x.run)
    (hf : ∀ value, Session.Asking (f value).run) : Session.Asking (x >>= f).run := by
  rw [Attempt.run_bind]
  refine Session.Asking.bind hx fun outcome => ?_
  cases outcome with
  | error stop => exact Session.Asking.done _
  | ok value => exact hf value

/-- What an attempt comes to that asks and goes on with another. -/
theorem Attempt.run_bind_value {x : Attempt α} (hx : Session.Asking x.run) (f : α → Attempt β)
    (world : Surroundings σ) (files : σ) :
    (Session.run world (x >>= f).run files).value =
      match (Session.run world x.run files).value with
      | .error stop => .error stop
      | .ok value => (Session.run world (f value).run files).value := by
  rw [Attempt.run_bind_eq]
  simp only [hx.run_files world files]
  cases (Session.run world x.run files).value with
  | error stop => rfl
  | ok value => rfl

/-- The log of an attempt that asks and goes on with another. -/
theorem Attempt.stored_bind {x : Attempt α} (hx : Session.Asking x.run) (f : α → Attempt β)
    (world : Surroundings σ) (files : σ) :
    Session.stored world (x >>= f).run files =
      match (Session.run world x.run files).value with
      | .error _ => []
      | .ok value => Session.stored world (f value).run files := by
  rw [Attempt.run_bind, Session.stored_bind, hx.run_files world files, hx.stored_eq_nil world files,
    List.nil_append]
  cases (Session.run world x.run files).value with
  | error stop => rfl
  | ok value => rfl

/-- The log of an attempt that stores an output and goes on with the result. -/
theorem Attempt.stored_write_bind (directory : String) (o : Output)
    (f : Except FileFault Unit → Attempt β) (world : Surroundings σ) (files : σ) :
    Session.stored world (ExceptT.lift (Session.write directory o) >>= f).run files =
      match world.store directory o files with
      | (.ok (), after) => o :: Session.stored world (f (.ok ())).run after
      | (.error fault, after) => Session.stored world (f (.error fault)).run after := by
  have hsession : (ExceptT.lift (Session.write directory o) >>= f).run =
      Session.store directory o fun result => (f result).run := rfl
  rw [hsession, Session.stored]

/-- A value computed at the end of an attempt does not show in its log. -/
theorem Attempt.stored_bind_pure (x : Attempt α) (g : α → β) (world : Surroundings σ) (files : σ) :
    Session.stored world (x >>= fun value => pure (g value)).run files =
      Session.stored world x.run files := by
  rw [Attempt.run_bind, Session.stored_bind]
  -- Whether there is a value to go on with or not, nothing more is stored.
  cases (Session.run world x.run files).value with
  | error stop => exact List.append_nil _
  | ok value => exact List.append_nil _

end Attempts

/-- The client only asks. -/
theorem Client.asking_exchange (client : Client) (method : Method) (resource : String)
    (filter : JobFilter) (now : Int) (body : String) :
    Session.Asking (client.exchange method resource filter now body).run := by
  refine Attempt.asking_bind (Session.Asking.done _) fun url => ?_
  refine Attempt.asking_bind (Session.Asking.send _ _ fun answer => Session.Asking.done _) ?_
  exact fun answer => Session.Asking.done _

/-- The log of a report is the log of its last step, if the first one comes to
    something to report. -/
theorem ReportSteps.stored_run {Raw σ : Type} (steps : ReportSteps Session Raw)
    (reportOf : Raw → Report) (hextract : Session.Asking steps.extract.run)
    (htransform : ∀ raw, steps.transform raw = pure (reportOf raw)) (world : Surroundings σ)
    (files : σ) :
    Session.stored world steps.run.run files =
      (Session.run world steps.extract.run files).value.toOption.elim [] fun raw =>
        Session.stored world (steps.load (reportOf raw)).run files := by
  rw [ReportSteps.run, Attempt.stored_bind hextract]
  cases (Session.run world steps.extract.run files).value with
  | error stop => rfl
  | ok raw =>
      simp only [htransform]
      rfl

end TestbedReport
