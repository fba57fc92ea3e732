import TestbedReport.Url.Basic

/-!
# Reading URLs

A base URL is typed by a user, and what users type is read the way browsers read
it. Blanks around it and line breaks inside do not count. The schemes of the web
are special: they need a host, take backslashes for slashes and do not care how
many slashes stand in front of the host. Other schemes are read more literally.

The text is cut into its parts first: scheme, authority, path, query, fragment,
each at the first character that ends it. Each part is then brought to its one
form. Segments of one dot vanish from a path, and segments of two dots take the
one before them along.

## Main definitions

* `SchemeKind`: The three ways to read what follows a scheme.
* `Url.parseAuthority`: User, host and port of the text between the slashes.
* `Url.resolveSegments`: The segments of a path without dots.
* `Url.parse`: The URL of a text.
-/

namespace TestbedReport

/-- How what follows a scheme is read. -/
inductive SchemeKind where
  | web (defaultPort : Nat)
  | file
  | other
deriving DecidableEq

namespace SchemeKind

/-- The kind of a scheme in lower case. -/
def ofScheme (scheme : String) : SchemeKind :=
  if scheme = "http" ∨ scheme = "ws" then .web 80
  else if scheme = "https" ∨ scheme = "wss" then .web 443
  else if scheme = "ftp" then .web 21
  else if scheme = "file" then .file
  else .other

/-- Whether a backslash is as good as a slash. -/
def isSpecial : SchemeKind → Bool
  | .other => false
  | _ => true

/-- Whether a character separates segments. -/
def isSlash (kind : SchemeKind) (c : Char) : Bool :=
  c = '/' || c = '\\' && kind.isSpecial

end SchemeKind

namespace Url

/-- The text without blanks and controls around it, and without tabs and line
    breaks inside. -/
def strip (cs : List Char) : List Char :=
  let isEdge (c : Char) : Bool := c.toNat ≤ 0x20
  let trimmed := ((cs.dropWhile isEdge).reverse.dropWhile isEdge).reverse
  trimmed.filter fun c => c ≠ '\t' ∧ c ≠ '\n' ∧ c ≠ '\r'

/-- The scheme in lower case with what follows its colon. -/
def splitScheme? (cs : List Char) : Option (String × List Char) :=
  let inScheme (c : Char) : Bool := c.isAlphanum || c = '+' || c = '-' || c = '.'
  let name := cs.takeWhile inScheme
  match name, cs.dropWhile inScheme with
  | first :: _, ':' :: rest =>
    if first.isAlpha then some (String.ofList (name.map Char.toLower), rest) else none
  | _, _ => none

/-- Splits a text at the last of a character, if it has one. -/
def splitLast? (separator : Char) (cs : List Char) : Option (List Char × List Char) :=
  let after := (cs.reverse.takeWhile (· ≠ separator)).reverse
  if after.length = cs.length then none
  else some (cs.take (cs.length - after.length - 1), after)

/-- User and password of the text in front of the `@`. An empty password is
    none. -/
def parseUser (cs : List Char) : String × Option String :=
  let user := cs.takeWhile (· ≠ ':')
  let password := (cs.dropWhile (· ≠ ':')).drop 1
  let encode (part : List Char) := String.ofList (Percent.encode Percent.inUserInfo part)
  (encode user, if password.isEmpty then none else some (encode password))

/-- Splits host and port at the first colon that is not in brackets. The port is
    absent when there is no colon. -/
def splitPort (inBrackets : Bool) : List Char → List Char × Option (List Char)
  | [] => ([], none)
  | c :: rest =>
    if c = ':' ∧ !inBrackets then ([], some rest)
    else
      let inBrackets := if c = '[' then true else if c = ']' then false else inBrackets
      let (host, port) := splitPort inBrackets rest
      (c :: host, port)

/-- The port of the digits behind the colon. No digits are no port, and neither
    is the one that the scheme implies. -/
def parsePort (kind : SchemeKind) (digits : List Char) : Except UrlFault (Option Nat) :=
  if digits.all Char.isDigit then
    let port := Nat.ofDigitChars 10 digits 0
    if 65535 < port then .error .port
    else if digits.isEmpty ∨ kind = .web port then .ok none
    else .ok (some port)
  else .error .port

/-- User, host and port of the text between the slashes, and what of it belongs
    to the path. Only a backslash behind a port does, where it is no slash. An
    `@` without a user needs a host when anything follows. -/
def parseAuthority (kind : SchemeKind) (cs : List Char) (follows : Bool) :
    Except UrlFault (Authority × List Char) := do
  let (userText, place) := match splitLast? '@' cs with
    | some (before, after) => (some before, after)
    | none => (none, cs)
  let (user, password) := parseUser (userText.getD [])
  let (hostText, portText) := splitPort false place
  if userText = some [] ∧ place.isEmpty ∧ follows then .error .emptyHost
  -- The host is judged before the port behind it.
  let host ←
    if kind.isSpecial then
      if hostText.isEmpty then .error .emptyHost else Host.parse hostText
    else Host.parseLoose hostText
  if hostText.isEmpty ∧ portText.isSome then .error .emptyHost
  let portDigits := (portText.getD []).takeWhile (· ≠ '\\')
  let port ← parsePort kind portDigits
  if hostText.isEmpty ∧ (user ≠ "" ∨ password.isSome) then .error .emptyHost
  return (⟨user, password, host, port⟩, (portText.getD []).drop portDigits.length)

/-- Whether a segment is two dots, a dot possibly in percent form. -/
def isDoubleDot (segment : List Char) : Bool :=
  ["..", "%2e.", ".%2e", "%2e%2e"].contains (String.ofList (segment.map Char.toLower))

/-- Whether a segment is one dot, possibly in percent form. -/
def isSingleDot (segment : List Char) : Bool :=
  [".", "%2e"].contains (String.ofList (segment.map Char.toLower))

/-- Whether a segment is a drive letter with a colon or a bar. -/
def isDrive : List Char → Bool
  | [letter, mark] => letter.isAlpha && (mark = ':' || mark = '|')
  | _ => false

/-- The segments without the last one. A drive letter of a file stays. -/
def dropSegment (kind : SchemeKind) : List String → List String
  | [only] => if kind = .file && isDrive only.toList then [only] else []
  | segments => segments.dropLast

/-- One segment more. At the end of the path a dot segment leaves a slash
    behind. The first segment of a file can be a drive letter. -/
def addSegment (kind : SchemeKind) (before : List String) (segment : List Char) (isLast : Bool) :
    List String :=
  if isDoubleDot segment then
    let shortened := dropSegment kind before
    if isLast then shortened ++ [""] else shortened
  else if isSingleDot segment then
    if isLast then before ++ [""] else before
  else if kind = .file && before.isEmpty && isDrive segment then
    before ++ [String.ofList (segment.take 1 ++ [':'])]
  else before ++ [String.ofList (Percent.encode Percent.inPath segment)]

/-- The segments of a path without dots, behind those that are there already. -/
def resolveSegments (kind : SchemeKind) (before : List String) : List (List Char) → List String
  | [] => before
  | [last] => addSegment kind before last true
  | segment :: rest => resolveSegments kind (addSegment kind before segment false) rest

/-- The pieces of a path between slashes. -/
def splitSegments (kind : SchemeKind) (cs : List Char) : List (List Char) :=
  Text.splitOn '/' (cs.map fun c => if kind.isSlash c then '/' else c)

/-- The path of a text behind an authority. A special scheme has a path in any
    case; empty segments in front of a file are dropped. -/
def parsePath (kind : SchemeKind) (cs : List Char) : UrlPath :=
  let withoutSlash := match cs with
    | c :: rest => if kind.isSlash c then rest else cs
    | [] => []
  if cs.isEmpty && !kind.isSpecial then .segments []
  else
    let segments := resolveSegments kind [] (splitSegments kind withoutSlash)
    if kind = .file then
      let kept := segments.dropWhile (·.isEmpty)
      .segments (if kept.isEmpty then [""] else kept)
    else .segments segments

/-- The text in front of the query and the fragment, with those two in their
    form. -/
def splitTail (kind : SchemeKind) (cs : List Char) : List Char × Option String × Option String :=
  let beforeFragment := cs.takeWhile (· ≠ '#')
  let fragment := (cs.drop beforeFragment.length).tail?.map fun text =>
    String.ofList (Percent.encode Percent.inFragment text)
  let beforeQuery := beforeFragment.takeWhile (· ≠ '?')
  let inQuery := if kind.isSpecial then Percent.inSpecialQuery else Percent.inQuery
  let query := (beforeFragment.drop beforeQuery.length).tail?.map fun text =>
    String.ofList (Percent.encode inQuery text)
  (beforeQuery, query, fragment)

/-- Authority and path of a text that begins with the authority. The path begins
    at the first slash. -/
def parsePlace (kind : SchemeKind) (cs : List Char) (tailFollows : Bool) :
    Except UrlFault (Option Authority × UrlPath) := do
  let pathText := cs.dropWhile (!kind.isSlash ·)
  let follows := tailFollows || !pathText.isEmpty
  let (authority, extra) ← parseAuthority kind (cs.takeWhile (!kind.isSlash ·)) follows
  return (some authority, parsePath kind (extra ++ pathText))

/-- A file without a host. -/
def localFile : Authority :=
  ⟨"", none, .domain "", none⟩

/-- Authority and path of a file. The host is what stands between two slashes
    and the path, unless it is a drive letter or this very machine. -/
def parseFile (cs : List Char) : Except UrlFault (Option Authority × UrlPath) :=
  let kind := SchemeKind.file
  match cs with
  | a :: b :: rest =>
    if kind.isSlash a && kind.isSlash b then
      let hostText := rest.takeWhile (!kind.isSlash ·)
      let pathText := rest.dropWhile (!kind.isSlash ·)
      if isDrive hostText then .ok (some localFile, parsePath kind rest)
      else if hostText.isEmpty then .ok (some localFile, parsePath kind pathText)
      else do
        let host ← Host.parse hostText
        let path := parsePath kind pathText
        -- A drive is on this machine, so a host in front of it is dropped.
        let startsWithDrive : Bool := match path with
          | .segments (first :: _) => isDrive first.toList
          | _ => false
        let host := if host = .domain "localhost" ∨ startsWithDrive then .domain "" else host
        return (some { localFile with host := host }, path)
    else .ok (some localFile, parsePath kind cs)
  | _ => .ok (some localFile, parsePath kind cs)

/-- Authority and path of what follows the scheme. -/
def parseHierarchy (kind : SchemeKind) (cs : List Char) (tailFollows : Bool) :
    Except UrlFault (Option Authority × UrlPath) :=
  match kind with
  | .web _ => parsePlace kind (cs.dropWhile kind.isSlash) tailFollows
  | .file => parseFile cs
  | .other =>
    match cs with
    | '/' :: '/' :: rest => parsePlace kind rest tailFollows
    | '/' :: rest => .ok (none, .segments (resolveSegments kind [] (splitSegments kind rest)))
    | text => .ok (none, .verbatim (String.ofList (Percent.encode Percent.isControl text)))

/-- The URL of a text. -/
def parse (text : String) : Except UrlFault Url :=
  match splitScheme? (strip text.toList) with
  | none => .error .relative
  | some (scheme, rest) => do
    let kind := SchemeKind.ofScheme scheme
    let (place, query, fragment) := splitTail kind rest
    let (authority, path) ← parseHierarchy kind place (query.isSome || fragment.isSome)
    return ⟨scheme, authority, path, query, fragment⟩

end Url

end TestbedReport
