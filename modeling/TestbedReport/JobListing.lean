import TestbedReport.Record.Basic

/-!
# The Job Listing

The server lists jobs as an array of entries, each with the job under the key
`job`. A listing is reported in full, one record per job with all its fields, or
as the bare ids.

The two do not agree on what an entry is. In full, an entry without a job object
is skipped. Among the ids every entry has its place, and one without an id is
empty.

## Main definitions

* `jobField`: A field of a job as a cell.
* `jobRecord`: The record of a job.
* `jobRecords`: The records of a listing.
* `jobIds`: The ids of a listing.
-/

namespace TestbedReport

/-- A field of a job as a cell. The flags of a job are shown as numbers, so a
    plain `false` is zero. -/
def jobField : Json → Scalar
  | .bool false => .int 0
  | value => Scalar.ofJson value

/-- The record of a job: its fields without the nested result, and a periodicity
    of zero if it names none. -/
def jobRecord (members : List (String × Json)) : Record :=
  let kept := members.filter fun member => member.1 ≠ "result"
  let r := Record.ofList (kept.map fun member => (member.1, jobField member.2))
  if r.contains "periodicity" then r else r.insert "periodicity" (.int 0)

/-- The record of an entry, if it has a job object. -/
def entryRecord? (entry : Json) : Option Record :=
  match entry.member? "job" with
  | some (.object members) => some (jobRecord members)
  | _ => none

/-- The records of a listing, one per job object. -/
def jobRecords (listing : Json) : List Record :=
  listing.items.filterMap entryRecord?

/-- The id of an entry, empty if it has none. -/
def entryId (entry : Json) : Scalar :=
  match (entry.member? "job").bind (·.member? "id") with
  | some id => Scalar.ofJson id
  | none => .empty

/-- The ids of a listing, one per entry. -/
def jobIds (listing : Json) : List Record :=
  listing.items.map fun entry => Record.ofList [("id", entryId entry)]

end TestbedReport
