import TestbedReport.Record.Basic

/-!
# Output Files

A report ends in files. Each file has a name, a content, and a mode that says
whether the content replaces what the file held or goes behind it.

## Main definitions

* `WriteMode`: Replacing or extending.
* `Output`: A file to be written.
* `Report`: The records of a report and its files.
-/

namespace TestbedReport

/-- Whether a content replaces what a file held or goes behind it. -/
inductive WriteMode where
  | truncate
  | append
deriving DecidableEq

/-- A file to be written. -/
structure Output where
  file : String
  content : String
  mode : WriteMode
deriving DecidableEq

/-- An output that replaces what the file held, whatever it said before. -/
def Output.replacing (o : Output) : Output :=
  { o with mode := .truncate }

/-- What a file holds after an output, given what it held. -/
def Output.appliedTo (o : Output) (held : String) : String :=
  match o.mode with
  | .truncate => o.content
  | .append => held ++ o.content

/-- The records of a report and the files it is written to. -/
structure Report where
  records : List Record
  outputs : List Output

end TestbedReport
