import TestbedReport.Report.Results
import TestbedReport.Report.Jobs

/-!
# Running a Report

A report is run in three steps, each once and in order: what it needs is asked
of the server, shaped, and stored. The first step that fails ends the run, so
nothing is stored unless everything before went well.

The outputs of a report are stored one after the other, and the first that is
refused ends the run with those before it in place.

The three steps are not tied to sessions. They can be anything that may fail,
in any monad, and `ReportSteps.run` is the same for all of them.

## Main definitions

* `ReportSteps`: The three steps of a report.
* `ReportSteps.run`: The run of a report.
* `storeAll`: Stores outputs in order.
* `resultsSteps`, `jobsSteps`: The steps of the two reports.
-/

namespace TestbedReport

/-- The three steps of a report over what the first one brings in. -/
structure ReportSteps (m : Type → Type) (Raw : Type) where
  extract : ExceptT Stop m Raw
  transform : Raw → ExceptT Stop m Report
  load : Report → ExceptT Stop m (List String)

/-- The run of a report. The result is what the last step says it stored. -/
def ReportSteps.run {m : Type → Type} [Monad m] {Raw : Type} (steps : ReportSteps m Raw) :
    ExceptT Stop m (List String) := do
  let raw ← steps.extract
  let report ← steps.transform raw
  steps.load report

/-- The path by which a stored file is called. -/
def storedPath (directory file : String) : String :=
  directory ++ "/" ++ file

/-- Stores outputs in order, up to the first that is refused. The result is the
    paths of the stored files. -/
def storeAll (directory : String) : List Output → Attempt (List String)
  | [] => return []
  | output :: rest => do
    match ← ExceptT.lift (Session.write directory output) with
    | .error fault => Attempt.fail (.file fault)
    | .ok () =>
      let paths ← storeAll directory rest
      return storedPath directory output.file :: paths

/-- The outputs of the results report are stored in the mode they ask for. -/
def loadResults (directory : String) (report : Report) : Attempt (List String) :=
  storeAll directory report.outputs

/-- The outputs of the jobs report replace what was there in any case. -/
def loadJobs (directory : String) (report : Report) : Attempt (List String) :=
  storeAll directory (report.outputs.map Output.replacing)

/-- The steps of the results report. -/
def resultsSteps (client : Client) (directory : String) (options : ResultsOptions) (now : Int) :
    ReportSteps Session ScenarioData where
  extract := extractResults client options now
  transform := fun data => return resultsReport options data
  load := loadResults directory

/-- The steps of the jobs report. -/
def jobsSteps (client : Client) (directory : String) (options : JobsOptions) (now : Int) :
    ReportSteps Session Json where
  extract := extractJobs client options now
  transform := fun listing => return jobsReport options listing
  load := loadJobs directory

end TestbedReport
