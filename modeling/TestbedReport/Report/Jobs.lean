import TestbedReport.Client
import TestbedReport.JobListing
import TestbedReport.Csv.Writer

/-!
# The Jobs Report

The job listing as a file that is written anew every time: the bare ids, the ids
in pairs with the word `id` in front, or all fields of every job. In the last
case a second file has a summary with fixed columns.

The columns of the full listing are those of its first job.

## Main definitions

* `JobsOptions`: Which jobs to list and how.
* `jobsReport`: The report of a listing.
* `extractJobs`: Asks the server.
-/

namespace TestbedReport

/-- Which jobs to list, and whether in full or as pairs. In full wins. -/
structure JobsOptions where
  query : MetricQuery
  detailed : Bool
  idList : Bool
deriving DecidableEq

/-- The file with the listing. -/
def jobsFile : String := "dcube_jobs_list.csv"

/-- The file with the summary of a full listing. -/
def jobsSummaryFile : String := "dcube_jobs_list_readable.csv"

/-- The ids of a listing as a table. -/
def idTable (idList : Bool) (ids : List Record) : TableData :=
  if idList then .idPairs "job" (ids.filterMap (·.get? "id")) else .rows ids

/-- The report of a listing. -/
def jobsReport (options : JobsOptions) (listing : Json) : Report :=
  if options.detailed then
    let jobs := jobRecords listing
    let full := (TableData.rows jobs).toCsv true none
    let summary := (TableData.rows (jobs.map View.jobs.project)).toCsv true (some View.jobs.header)
    ⟨jobs, [⟨jobsFile, full, .truncate⟩, ⟨jobsSummaryFile, summary, .truncate⟩]⟩
  else
    let ids := jobIds listing
    ⟨ids, [⟨jobsFile, (idTable options.idList ids).toCsv false none, .truncate⟩]⟩

/-- Asks the server for the listing. -/
def extractJobs (client : Client) (options : JobsOptions) (now : Int) : Attempt Json :=
  client.fetchMetrics options.query now

end TestbedReport
