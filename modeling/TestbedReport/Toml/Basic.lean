import TestbedReport.Keyed

/-!
# TOML Tables

A settings file is a TOML document: tables of values under keys, where a value
can be a table again. The lines of a document build the tables up piece by
piece, and the rules about what may still be added to a table depend on how the
table came to be. A table therefore remembers its origin.

Every operation here takes the members of one table and a path of keys and is
refused where the rules forbid it: nothing is defined twice, a value that is no
table is never extended, and a table written in braces is closed for good.

## Main definitions

* `Toml`: A value.
* `TableOrigin`: How a table came to be.
* `Toml.reach?`: Changes the table to which a path leads.
* `Toml.assign?`: Sets a value under a dotted key.
* `Toml.openTable?`, `Toml.openItem?`: Begins a table and an item of an array
  of tables.
-/

namespace TestbedReport

/-- How a table came to be: on the way to another, by a dotted key, by its own
    header, or in braces. -/
inductive TableOrigin where
  | implied
  | dotted
  | header
  | braces
deriving DecidableEq

/-- A TOML value. An array of tables is never empty, and only its last item is
    still open. -/
inductive Toml where
  | text (value : String)
  | integer (value : Int)
  | float (value : Float)
  | bool (value : Bool)
  | moment (written : String)
  | array (items : List Toml)
  | table (origin : TableOrigin) (members : List (String × Toml))
  | tables (before : List (List (String × Toml))) (last : List (String × Toml))
deriving Inhabited

namespace Toml

/-- The members of a table. -/
abbrev Members := List (String × Toml)

/-- A change to a table, given its origin and its members. It can be refused. -/
abbrev Change := TableOrigin → Members → Option (TableOrigin × Members)

/-- Changes the table to which a path leads from a table. Tables that are missing
    on the way are made. On the way of a dotted key there must not be a table
    that has a header of its own. -/
def reach? (dotted : Bool) (change : Change) : List String → Change
  | [], origin, members => change origin members
  | key :: path, origin, members => do
    let child ← match members.lookup key with
      | none => do
        let (o, m) ← reach? dotted change path (if dotted then .dotted else .implied) []
        pure (.table o m)
      | some (.table o m) =>
        if o = .braces ∨ dotted ∧ o = .header then none
        else do
          let (o, m) ← reach? dotted change path o m
          pure (.table o m)
      | some (.tables before last) => do
        let (_, last) ← reach? dotted change path .header last
        pure (.tables before last)
      | some _ => none
    return (origin, Keyed.put key child members)

/-- Sets a value under the last part of a dotted key, given whether the key has
    other parts. Only a table made by dotted keys can be filled by them. -/
def setMember (isDotted : Bool) (key : String) (value : Toml) : Change := fun origin members =>
  if (origin = .dotted) = isDotted ∧ (members.lookup key).isNone then
    some (origin, Keyed.put key value members)
  else none

/-- Sets a value under a dotted key in the table to which a path leads. -/
def assign? (path front : List String) (key : String) (value : Toml) (root : Members) :
    Option Members :=
  (reach? false (reach? true (setMember (!front.isEmpty) key value) front) path .header root).map
    (·.2)

/-- Begins the table under a header. It may only be there already as a table on
    the way to another. -/
def openTable? (front : List String) (key : String) (root : Members) : Option Members :=
  let begin : Change := fun origin members =>
    match members.lookup key with
    | none => some (origin, Keyed.put key (.table .header []) members)
    | some (.table .implied inner) => some (origin, Keyed.put key (.table .header inner) members)
    | some _ => none
  (reach? false begin front .header root).map (·.2)

/-- Begins the next item of an array of tables. -/
def openItem? (front : List String) (key : String) (root : Members) : Option Members :=
  let begin : Change := fun origin members =>
    match members.lookup key with
    | none => some (origin, Keyed.put key (.tables [] []) members)
    | some (.tables before last) =>
      some (origin, Keyed.put key (.tables (before ++ [last]) []) members)
    | some _ => none
  (reach? false begin front .header root).map (·.2)

end Toml

end TestbedReport
