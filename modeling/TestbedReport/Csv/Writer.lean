import TestbedReport.Csv.Table

/-!
# Writing Comma-Separated Text

Every row ends with a line feed, so a file can be extended by further rows. A
field is put in quotes when it holds a comma, a quote or a line break, and a
quote inside is written twice.

A row must not come out as an empty line, which a reader would pass over. The
rows in danger are those with a single empty field, and the rows without any
field; both are written as a pair of quotes.

## Main definitions

* `Csv.writeField`: A field as characters.
* `Csv.writeRow`: A row with its line feed.
* `Csv.write`: A grid as characters.
* `TableData.toCsv`: What a file shows as its content.
-/

namespace TestbedReport

namespace Csv

/-- Whether a field has to stand in quotes. -/
def needsQuotes (field : List Char) : Bool :=
  field.any fun c => c = ',' || c = '"' || c = '\r' || c = '\n'

/-- The characters of a field inside of quotes. -/
def doubleQuotes (field : List Char) : List Char :=
  field.flatMap fun c => if c = '"' then ['"', '"'] else [c]

/-- A field as characters. -/
def writeField (field : List Char) : List Char :=
  if needsQuotes field then '"' :: doubleQuotes field ++ ['"'] else field

/-- Fields with commas between them. -/
def writeFields : List (List Char) → List Char
  | [] => []
  | [field] => writeField field
  | field :: rest => writeField field ++ ',' :: writeFields rest

/-- A row with its line feed. What would be an empty line is a pair of quotes. -/
def writeRow (row : List (List Char)) : List Char :=
  match writeFields row with
  | [] => ['"', '"', '\n']
  | line => line ++ ['\n']

/-- The rows of a grid one after the other. -/
def write (grid : List (List String)) : List Char :=
  grid.flatMap fun row => writeRow (row.map String.toList)

end Csv

/-- The content of a file. What fills no grid has none. -/
def TableData.toCsv (headers : Bool) (given : Option (List String)) (data : TableData) : String :=
  match data.grid? headers given with
  | none => ""
  | some grid => String.ofList (Csv.write grid)

end TestbedReport
