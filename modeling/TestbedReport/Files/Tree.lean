import TestbedReport.Session
import TestbedReport.Keyed
import TestbedReport.Text.Utf8
import TestbedReport.Files.Path

/-!
# A Tree of Files

The place for reports on a disk: directories with names in them, and files with
bytes in them. A tree is kept as the list of its entries, each with the names
that lead to it from the root; the root itself is always there.

Storing a file is more than one step, and each can fail. First the directories
on the way are made, outermost first; then the file is opened, which needs it to
be a file or nothing at all; then the bytes are written. A failure later on does
not undo what was done before, so a failed call can leave new directories
behind, but never changes the content of a file.

## Main definitions

* `Location`, `Node`, `FileTree`: What there is, and where.
* `FileTree.find?`: The entry at a location.
* `FileTree.walk`: Where steps lead.
* `FileTree.makeAll`: Makes directories.
* `FileTree.target`: The location of a file to be written.
* `FileTree.store`, `FileTree.read`: Writes and reads a file.
* `FileTree.surroundings`: A world with a server and a tree of files.

## Theorems

* `FileTree.find?_put`: What is found after an entry is set.
-/

namespace TestbedReport

/-- The names that lead from the root to an entry. -/
abbrev Location := List String

/-- An entry of a tree. -/
inductive Node where
  | file (content : List UInt8)
  | directory
deriving DecidableEq

/-- A tree of files: its entries with their locations, without the root. -/
structure FileTree where
  entries : List (Location × Node)
deriving DecidableEq

/-- The most bytes a name can have. -/
def maxNameSize : Nat := 255

/-- The fewest bytes that are too many for a path. -/
def pathLimit : Nat := 4096

namespace FileTree

/-- The tree without files. -/
def empty : FileTree :=
  ⟨[]⟩

/-- The entry at a location. The root is a directory. -/
def find? (t : FileTree) (place : Location) : Option Node :=
  if place = [] then some .directory else t.entries.lookup place

/-- Sets the entry at a location. -/
def put (t : FileTree) (place : Location) (node : Node) : FileTree :=
  ⟨Keyed.put place node t.entries⟩

/-- An entry that was set is found, unless it was to replace the root, and every
    other location has the entry it had. -/
theorem find?_put (t : FileTree) (place other : Location) (node : Node) :
    (t.put place node).find? other =
      if other = [] then some .directory
      else if other = place then some node else t.find? other := by
  unfold find? put
  split
  · rfl
  · simp [Keyed.lookup_put]

/-- The entry under a name. A name can be too long to be looked up. -/
def child (t : FileTree) (here : Location) (name : String) : Except FileFault (Option Node) :=
  if maxNameSize < name.utf8ByteSize then .error .nameTooLong else .ok (t.find? (here ++ [name]))

/-- Where steps lead from a directory. All of them must lead to directories. -/
def walk (t : FileTree) (here : Location) : List PathStep → Except FileFault Location
  | [] => .ok here
  | .up :: rest => t.walk here.dropLast rest
  | .down name :: rest =>
    match t.child here name with
    | .error fault => .error fault
    | .ok none => .error .notFound
    | .ok (some (.file _)) => .error .notDirectory
    | .ok (some .directory) => t.walk (here ++ [name]) rest

/-- Makes one directory, to which the last step leads. -/
def makeDirectory (t : FileTree) (here : Location) (before : List PathStep) (last : PathStep) :
    Except FileFault FileTree := do
  let parent ← t.walk here before
  match last with
  | .up => .error .exists
  | .down name =>
    match ← t.child parent name with
    | some _ => .error .exists
    | none => .ok (t.put (parent ++ [name]) .directory)

/-- That a directory could not be made does not matter if it is there. -/
def tolerate (t : FileTree) (here : Location) (steps : List PathStep) (fault : FileFault) :
    Except FileFault Unit :=
  match t.walk here steps with
  | .ok _ => .ok ()
  | .error _ => .error fault

/-- Makes the directory to which steps lead, and first the one around it if that
    is missing. The steps are given last to first. -/
def makeAll (here : Location) : List PathStep → FileTree → Except FileFault Unit × FileTree
  | [], t => (.ok (), t)
  | last :: before, t =>
    match t.makeDirectory here before.reverse last with
    | .ok t => (.ok (), t)
    | .error .notFound =>
      -- The directory around it is missing: that one first, then this one again.
      match makeAll here before t with
      | (.error fault, t) => (.error fault, t)
      | (.ok (), t) =>
        match t.makeDirectory here before.reverse last with
        | .ok t => (.ok (), t)
        | .error fault => (t.tolerate here (before.reverse ++ [last]) fault, t)
    | .error fault => (t.tolerate here (before.reverse ++ [last]) fault, t)

/-- The location of a file to be written. A path that can only mean a directory
    has none. -/
def target (t : FileTree) (here : Location) (path : FilePath) : Except FileFault Location := do
  match path.ending with
  | .dots =>
    let _ ← t.walk here path.steps
    .error .isDirectory
  | .slash =>
    let _ ← t.walk here path.parent
    .error .isDirectory
  | .name name =>
    let parent ← t.walk here path.parent
    match ← t.child parent name with
    | some .directory => .error .isDirectory
    | _ => return parent ++ [name]

/-- The content of a file before it is written. -/
def contentBefore (t : FileTree) (mode : WriteMode) (place : Location) : List UInt8 :=
  match mode, t.find? place with
  | .append, some (.file content) => content
  | _, _ => []

/-- Whether a step has a name that the system cannot be told. -/
def hasNul : PathStep → Bool
  | .down name => name.toList.contains '\x00'
  | .up => false

/-- Where a path starts. -/
def origin (here : Location) (path : FilePath) : Location :=
  if path.absolute then [] else here

/-- Writes bytes to a file, given the directory that relative paths start
    from. -/
def store (t : FileTree) (here : Location) (text : String) (mode : WriteMode)
    (bytes : List UInt8) : Except FileFault Unit × FileTree :=
  let path := FilePath.ofText text
  let here := origin here path
  if path.parent.any hasNul then (.error .nulInName, t)
  else if pathLimit ≤ (FilePath.parentText text).utf8ByteSize then (.error .nameTooLong, t)
  else
    match makeAll here path.parent.reverse t with
    | (.error fault, t) => (.error fault, t)
    | (.ok (), t) =>
      -- The directories stay, whatever comes now.
      if path.steps.any hasNul then (.error .nulInName, t)
      else if text.isEmpty then (.error .notFound, t)
      else if pathLimit ≤ text.utf8ByteSize then (.error .nameTooLong, t)
      else
        match t.target here path with
        | .error fault => (.error fault, t)
        | .ok place => (.ok (), t.put place (.file (t.contentBefore mode place ++ bytes)))

/-- The bytes of a file. -/
def read (t : FileTree) (here : Location) (text : String) : Except FileFault (List UInt8) := do
  let path := FilePath.ofText text
  let here := origin here path
  if path.steps.any hasNul then .error .nulInName
  else if text.isEmpty then .error .notFound
  else if pathLimit ≤ text.utf8ByteSize then .error .nameTooLong
  else
    match path.ending with
    | .name name =>
      let parent ← t.walk here path.parent
      match ← t.child parent name with
      | none => .error .notFound
      | some .directory => .error .isDirectory
      | some (.file bytes) => return bytes
    | _ =>
      let _ ← t.walk here path.steps
      .error .isDirectory

/-- A world with a server and a tree of files, and a directory that relative
    paths start from. -/
def surroundings (answer : Request → Answer) (here : Location) : Surroundings FileTree where
  answer := answer
  store := fun directory output t =>
    t.store here (FilePath.join directory output.file) output.mode (Utf8.encode output.content)
  read := fun path t => t.read here path

end FileTree

end TestbedReport
