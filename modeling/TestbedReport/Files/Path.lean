import TestbedReport.Text.Split

/-!
# Paths

A path is a text that leads from one directory to another: each part between
slashes is the name of an entry to go down to, or two dots to go up. Parts of
one dot, and parts with nothing in them, lead nowhere.

What a path ends in matters nevertheless. A path that ends in a slash or in dots
can only mean a directory, even where the steps alone would lead to a file.

## Main definitions

* `PathStep`: One step down or up.
* `PathEnding`: What a path ends in.
* `FilePath`: A path in its parts.
* `FilePath.ofText`: The path of a text.
* `FilePath.parentText`: The path of the directory that holds it.
* `FilePath.join`: A path relative to another.
-/

namespace TestbedReport

/-- One step of a path. -/
inductive PathStep where
  | down (name : String)
  | up
deriving DecidableEq

/-- What a path ends in: a name, a name with a slash behind it, or nothing that
    is a name. -/
inductive PathEnding where
  | name (name : String)
  | slash
  | dots
deriving DecidableEq

/-- A path: whether it leads from the root, the steps it takes, and what it ends
    in. -/
structure FilePath where
  absolute : Bool
  steps : List PathStep
  ending : PathEnding
deriving DecidableEq

namespace FilePath

/-- The step of a part between slashes. One dot is no step. -/
def stepOf? (part : String) : Option PathStep :=
  if part = "." then none else if part = ".." then some .up else some (.down part)

/-- The path of a text. -/
def ofText (text : String) : FilePath :=
  let parts := ((Text.splitOn '/' text.toList).filter (!·.isEmpty)).map String.ofList
  let ending := match parts.getLast? with
    | none => .dots
    | some last =>
      match stepOf? last with
      | some (.down name) => if text.toList.getLast? = some '/' then .slash else .name name
      | _ => .dots
  ⟨text.toList.head? = some '/', parts.filterMap stepOf?, ending⟩

/-- The steps to the directory that holds what the path leads to. -/
def parent (p : FilePath) : List PathStep :=
  p.steps.dropLast

/-- The characters of a path, last to first, without slashes and parts of one dot
    at the end. -/
def trimReversed : List Char → List Char
  | '/' :: rest => trimReversed rest
  | '.' :: '/' :: rest => trimReversed rest
  | cs => cs

/-- The text that leads to the directory that holds what a path leads to. -/
def parentText (text : String) : String :=
  let place := trimReversed text.toList.reverse
  String.ofList (trimReversed (place.dropWhile (· ≠ '/'))).reverse

/-- A path relative to another. A path from the root replaces the other. -/
def join (base path : String) : String :=
  if path.toList.head? = some '/' then path
  else if base.isEmpty ∨ base.toList.getLast? = some '/' then base ++ path
  else base ++ "/" ++ path

end FilePath

end TestbedReport
