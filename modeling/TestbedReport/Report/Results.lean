import TestbedReport.Client
import TestbedReport.Scenario
import TestbedReport.Csv.Writer

/-!
# The Results Report

The outcome of one job, joined with its queue entry, in two files: every
measurement for the plotting scripts, and a summary for people. Both files show
the same rows through their view, and both have all columns of the view in every
row, so that reports of different jobs can be put into one file one after the
other.

## Main definitions

* `ResultsOptions`: What to report and how to write it.
* `ScenarioData`: What the server said.
* `resultsReport`: The report of that.
* `extractResults`: Asks the server.
-/

namespace TestbedReport

/-- What to report and how to write it. -/
structure ResultsOptions where
  jobId : UInt64
  filter : JobFilter
  append : Bool
  headers : Bool
deriving DecidableEq

/-- What the server said about a job: the rows of its outcome and its queue
    entry. -/
structure ScenarioData where
  scenario : List Record
  queue : Record

/-- What two documents say about a job. A queue entry that is no object has no
    fields. -/
def ScenarioData.ofDocuments (scenario queue : Json) : ScenarioData :=
  ⟨scenarioRows scenario, (Record.ofJson? queue).getD .empty⟩

/-- The file with every measurement. -/
def plottingFile : String := "dcube_results_plotting.csv"

/-- The file with the summary. -/
def readableFile : String := "dcube_results_readable.csv"

/-- The files of the report with the views they show. -/
def resultsViews : List (View × String) :=
  [(.plotting, plottingFile), (.readable, readableFile)]

/-- Whether files are extended or replaced. -/
def ResultsOptions.mode (options : ResultsOptions) : WriteMode :=
  if options.append then .append else .truncate

/-- Joined rows as one file. -/
def resultsOutput (options : ResultsOptions) (combined : Combined) (view : View) (file : String) :
    Output :=
  ⟨file, (view.tableOf combined).toCsv options.headers (some view.header), options.mode⟩

/-- The report of what the server said. -/
def resultsReport (options : ResultsOptions) (data : ScenarioData) : Report :=
  let combined := combine data.scenario data.queue
  ⟨combined.records, resultsViews.map fun (view, file) => resultsOutput options combined view file⟩

/-- Asks the server for the outcome of the job and then for its queue entry. -/
def extractResults (client : Client) (options : ResultsOptions) (now : Int) :
    Attempt ScenarioData := do
  let scenario ← client.fetchScenario options.jobId options.filter now
  let queue ← client.fetchQueue options.jobId options.filter now
  return ScenarioData.ofDocuments scenario queue

end TestbedReport
