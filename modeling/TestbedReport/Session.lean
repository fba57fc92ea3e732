import TestbedReport.Request
import TestbedReport.Report.Output

/-!
# Sessions

A run of the program talks to the world: it sends requests, stores files and
reads files. A `Session` is such a run as a value. It is finished with a result,
or it asks the world one thing and knows how to go on with every possible
answer.

What a session does is thereby fixed before any world exists. `run` lets it talk
to a world that is itself a value, which is where statements about runs are made
and where tests come from; the command line lets the very same session talk to
the network and the disk.

## Main definitions

* `Session`: A run as a value.
* `Attempt`: A session that can end early.
* `Surroundings`: A world as a value.
* `Session.run`: A session in a world, with the requests it sent.

## Theorems

* `Session.run_bind`: A run of two sessions in a row is one after the other.
-/

namespace TestbedReport

/-- A run of the program: finished, or waiting for the answer of the world to
    one question. -/
inductive Session (α : Type) : Type where
  | done (value : α)
  | send (request : Request) (next : Answer → Session α)
  | store (directory : String) (output : Output) (next : Except FileFault Unit → Session α)
  | read (path : String) (next : Except FileFault (List UInt8) → Session α)

namespace Session

variable {α β σ : Type}

/-- Goes on with another session where the first is finished. -/
def bind : Session α → (α → Session β) → Session β
  | .done value, f => f value
  | .send request next, f => .send request fun answer => (next answer).bind f
  | .store directory output next, f =>
    .store directory output fun result => (next result).bind f
  | .read path next, f => .read path fun content => (next content).bind f

instance : Monad Session where
  pure := .done
  bind := Session.bind

/-- One request. -/
def ask (request : Request) : Session Answer :=
  .send request .done

/-- One file written. -/
def write (directory : String) (output : Output) : Session (Except FileFault Unit) :=
  .store directory output .done

/-- One file read. -/
def fetch (path : String) : Session (Except FileFault (List UInt8)) :=
  .read path .done

end Session

/-- A session that can end early. -/
abbrev Attempt (α : Type) := ExceptT Stop Session α

/-- Ends an attempt with a failure. -/
def Attempt.fail {α : Type} (cause : Failure) : Attempt α :=
  throw (.failed cause)

/-- A result that is there already, or a failure. -/
def Attempt.ofOutcome {α : Type} (outcome : Outcome α) : Attempt α :=
  ExceptT.mk (.done outcome)

/-- A world as a value: a server that answers every request, and files in some
    state that can be read and stored. -/
structure Surroundings (σ : Type) where
  answer : Request → Answer
  store : String → Output → σ → Except FileFault Unit × σ
  read : String → σ → Except FileFault (List UInt8)

/-- What a session came to: its result, the requests it sent in order, and the
    files it left. -/
structure Trace (σ α : Type) where
  value : α
  requests : List Request
  files : σ

/-- A session in a world whose files are in a given state. -/
def Session.run {α σ : Type} (world : Surroundings σ) : Session α → σ → Trace σ α
  | .done value, files => ⟨value, [], files⟩
  | .send request next, files =>
    let rest := (next (world.answer request)).run world files
    { rest with requests := request :: rest.requests }
  | .store directory output next, files =>
    let (result, files) := world.store directory output files
    (next result).run world files
  | .read path next, files => (next (world.read path files)).run world files

/-- A run of two sessions in a row is one after the other, with the requests of
    both. -/
theorem Session.run_bind {α β σ : Type} (world : Surroundings σ) (s : Session α)
    (f : α → Session β) (files : σ) :
    (s.bind f).run world files =
      let first := s.run world files
      let second := (f first.value).run world first.files
      { second with requests := first.requests ++ second.requests } := by
  induction s generalizing files with
  | done value => simp [Session.bind, Session.run]
  | send request next ih => simp [Session.bind, Session.run, ih]
  | store directory output next ih => simp [Session.bind, Session.run, ih]
  | read path next ih => simp [Session.bind, Session.run, ih]

end TestbedReport
