import TestbedReport.Text.Split
import TestbedReport.Url.Percent

/-!
# Query Pairs

The query of a request is a list of named values. It is written with an equals
sign between name and value and an ampersand between pairs. Inside of a name or
value letters, digits and the four marks `*-._` stand for themselves, a space is
a plus sign, and everything else is in percent form. Two pairs may have one
name, and their order is kept.

Reading accepts more than writing produces. A pair without an equals sign has an
empty value, empty pairs are passed over, and what is no well-formed text is
read with replacement characters.

## Main definitions

* `Form.writePairs`: Pairs as the characters of a query.
* `Form.readPairs`: The pairs of a query.
-/

namespace TestbedReport

namespace Form

/-- What stands for itself in a name or value. -/
def isPlain (c : Char) : Bool :=
  c.isAlphanum || ['*', '-', '.', '_'].contains c

/-- A character of a name or value. -/
def writeChar (c : Char) : List Char :=
  if c = ' ' then ['+'] else Percent.encodeChar (fun c => !isPlain c) c

/-- A name or value. -/
def writeText (text : String) : List Char :=
  text.toList.flatMap writeChar

/-- A named value. -/
def writePair (pair : String × String) : List Char :=
  writeText pair.1 ++ '=' :: writeText pair.2

/-- Puts an ampersand between two queries, unless the first is empty. -/
def join (first second : List Char) : List Char :=
  if first.isEmpty then second else first ++ '&' :: second

/-- Pairs behind a query that is there already. -/
def extend (query : List Char) (pairs : List (String × String)) : List Char :=
  pairs.foldl (fun query pair => join query (writePair pair)) query

/-- Pairs as the characters of a query. -/
def writePairs (pairs : List (String × String)) : List Char :=
  extend [] pairs

/-- The text of a name or value. -/
def readText (cs : List Char) : String :=
  let spaced := cs.map fun c => if c = '+' then ' ' else c
  Utf8.decodeLossy (Percent.decode (spaced.flatMap String.utf8EncodeChar))

/-- The pair of a piece, split at the first equals sign. -/
def readPair (piece : List Char) : String × String :=
  (readText (piece.takeWhile (· ≠ '=')), readText ((piece.dropWhile (· ≠ '=')).drop 1))

/-- The pairs of a query. -/
def readPairs (query : List Char) : List (String × String) :=
  ((Text.splitOn '&' query).filter (!·.isEmpty)).map readPair

end Form

end TestbedReport
