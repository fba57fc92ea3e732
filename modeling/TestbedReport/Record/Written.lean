import TestbedReport.Record.Basic
import TestbedReport.Json.Value

/-!
# Records in Writing

A record is written as a JSON object with the one member `data`, which holds the
columns in order. Reading it back is exact about what it needs and indifferent
to the rest: other members must have the structure of JSON and are then passed
over, whatever they hold. The member `data` must be there, once, with nothing
but scalars in it. The same content as an array of one element is read as well.

## Main definitions

* `Record.toJson`: The JSON value a record is written as.
* `Record.read?`: The record of a text.
* `Scalar.read?`: The scalar of a text.
-/

namespace TestbedReport

open Json

/-- The JSON value a record is written as. -/
def Record.toJson (r : Record) : Json :=
  .object [("data", .object (r.fields.map fun field => (field.1, field.2.toJson)))]

/-- The columns of a record from the members as written. -/
def Record.fieldsOf? (members : List (List TextPiece × Document)) :
    Option (List (String × Scalar)) :=
  members.mapM fun member => do
    let column ← stringOf? member.1
    let value ← member.2.value?
    let scalar ← Scalar.ofPlainJson? value
    return (column, scalar)

/-- The record held by the value of `data`. -/
def Record.ofData? : Document → Option Record
  | .object members => (Record.fieldsOf? members).map Record.ofList
  | _ => none

/-- The values written under `data`. Every key must be a text. -/
def dataMembers? (members : List (List TextPiece × Document)) : Option (List Document) :=
  (members.mapM fun member => (stringOf? member.1).map fun key => (key, member.2)).map
    fun named => (named.filter fun member => member.1 = "data").map (·.2)

/-- The record of a document: an object with one `data`, or an array of it. -/
def Record.ofDocument? : Document → Option Record
  | .object members =>
    match dataMembers? members with
    | some [value] => Record.ofData? value
    | _ => none
  | .array [value] => Record.ofData? value
  | _ => none

/-- The record of a text. -/
def Record.read? (text : String) : Option Record :=
  (Document.read? text.toList).bind Record.ofDocument?

/-- The scalar of a text. -/
def Scalar.read? (text : String) : Option Scalar :=
  (Json.parse? text).bind Scalar.ofPlainJson?

end TestbedReport
