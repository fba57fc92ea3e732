import TestbedReport.Url.Host
import TestbedReport.Url.Form

/-!
# URLs

A URL in its parts. Two URLs are equal exactly when their parts are, and the
text of a URL is a function of the parts; there is no other text kept beside
them.

A request is made for a URL by adding named values to its query, and before a
URL is shown to anybody the value of every `key` in it is replaced by stars.

## Main definitions

* `Authority`: User, host and port.
* `UrlPath`: The path, in segments or as it is.
* `Url`: A URL in its parts.
* `Url.text`: The text of a URL.
* `Url.addPairs`: The URL with more query pairs.
* `Url.redact`: The URL with every key masked.
-/

namespace TestbedReport

/-- User, password, host and port. A port that the scheme implies is left
    out. -/
structure Authority where
  user : String
  password : Option String
  host : Host
  port : Option Nat
deriving DecidableEq

/-- The path of a URL: segments behind slashes, or a text that is no path to the
    schemes known here. -/
inductive UrlPath where
  | segments (parts : List String)
  | verbatim (text : String)
deriving DecidableEq

/-- A URL in its parts. -/
structure Url where
  scheme : String
  authority : Option Authority
  path : UrlPath
  query : Option String
  fragment : Option String
deriving DecidableEq

/-- The characters of an authority, behind its two slashes. -/
def Authority.write (a : Authority) : List Char :=
  let user := match a.password with
    | some password => a.user.toList ++ ':' :: password.toList ++ ['@']
    | none => if a.user.isEmpty then [] else a.user.toList ++ ['@']
  let port := match a.port with
    | some port => ':' :: Decimal.ofNat port
    | none => []
  ['/', '/'] ++ user ++ a.host.write ++ port

/-- The characters of a path. -/
def UrlPath.write : UrlPath → List Char
  | .segments parts => parts.flatMap fun part => '/' :: part.toList
  | .verbatim text => text.toList

namespace Url

/-- The characters in front of the query. Without an authority, a path must not
    begin with two slashes, which would look like one. -/
def writePlace (u : Url) : List Char :=
  match u.authority with
  | some authority => authority.write ++ u.path.write
  | none =>
    match u.path.write with
    | '/' :: '/' :: rest => '/' :: '.' :: '/' :: '/' :: rest
    | path => path

/-- The characters of the query with its mark. -/
def writeQuery (u : Url) : List Char :=
  match u.query with
  | some query => '?' :: query.toList
  | none => []

/-- The text of a URL. -/
def text (u : Url) : String :=
  let fragment := match u.fragment with
    | some fragment => '#' :: fragment.toList
    | none => []
  String.ofList (u.scheme.toList ++ ':' :: u.writePlace ++ u.writeQuery ++ fragment)

/-- What a request line names: the path and the query. -/
def target (u : Url) : String :=
  String.ofList (u.path.write ++ u.writeQuery)

/-- The path of a URL as a text. -/
def pathText (u : Url) : String :=
  String.ofList u.path.write

/-- The pairs of the query. -/
def pairs (u : Url) : List (String × String) :=
  Form.readPairs (u.query.getD "").toList

/-- The URL with more query pairs behind the ones it has. -/
def addPairs (u : Url) (pairs : List (String × String)) : Url :=
  { u with query := some (String.ofList (Form.extend (u.query.getD "").toList pairs)) }

/-- The name of the query value that holds the key. -/
def keyName : String := "key"

/-- A pair with its value masked if it is a key. -/
def maskPair (pair : String × String) : String × String :=
  if pair.1 = keyName then (pair.1, "***") else pair

/-- The URL with every key masked, fit to be shown. -/
def redact (u : Url) : Url :=
  { u with query := some (String.ofList (Form.writePairs (u.pairs.map maskPair))) }

end Url

end TestbedReport
