import TestbedReport.Session
import TestbedReport.Keyed
import TestbedReport.Text.Utf8

/-!
# Files in Memory

The simplest place for a report: a list of named texts. Any set of names can be
refused, and a refused file stays as it was. There are no directories, so the
directory of a report plays no part.

## Main definitions

* `MemoryFiles`: Named texts, each name once.
* `MemoryFiles.store`: Stores an output unless its name is refused.
* `MemoryFiles.surroundings`: A world with a server and files in memory.
-/

namespace TestbedReport

/-- Named texts in the order in which the names first came. -/
abbrev MemoryFiles := List (String × String)

namespace MemoryFiles

/-- What a file holds; a file that does not exist holds nothing. -/
def content (files : MemoryFiles) (file : String) : String :=
  (files.lookup file).getD ""

/-- Stores an output unless its name is refused. -/
def store (refused : String → Bool) (output : Output) (files : MemoryFiles) :
    Except FileFault Unit × MemoryFiles :=
  if refused output.file then (.error (.other "denied"), files)
  else (.ok (), Keyed.put output.file (output.appliedTo (files.content output.file)) files)

/-- The bytes of a file. -/
def read (files : MemoryFiles) (path : String) : Except FileFault (List UInt8) :=
  match files.lookup path with
  | some content => .ok (Utf8.encode content)
  | none => .error .notFound

/-- A world with a server and files in memory. -/
def surroundings (answer : Request → Answer) (refused : String → Bool) :
    Surroundings MemoryFiles where
  answer := answer
  store := fun _ output files => store refused output files
  read := fun path files => files.read path

end MemoryFiles

end TestbedReport
