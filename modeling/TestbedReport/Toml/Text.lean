import TestbedReport.Text.Digit

/-!
# Lines, Keys and Texts of TOML

The parts of a line that are no values by themselves, and the four ways to write
a text. Between double quotes a backslash begins an escape, between single
quotes everything is itself, and with three quotes of either kind a text may
have line breaks.

A text is cut out first and its escapes are undone afterwards. Cutting needs to
know about escapes only that a quote behind a backslash ends nothing.

Functions return what they read together with the characters that follow, or
nothing if the characters are not what was to be read.

## Main definitions

* `endLine?`, `skipSpread`: Line ends and everything that may stand between
  items on several lines.
* `unescape?`: The text of the characters between double quotes.
* `text?`: A text in any of the four ways.
* `keyPath?`: A key with its parts between dots.
-/

namespace TestbedReport

namespace Toml

/-- Whether a character separates parts of a line. -/
def isGap (c : Char) : Bool :=
  c = ' ' || c = '\t'

/-- Whether a character may stand in a comment or in a text as itself: no
    controls but the tab. -/
def isPrintable (c : Char) : Bool :=
  c = '\t' || (0x20 ≤ c.toNat && c.toNat ≠ 0x7F)

/-- The characters after blanks. -/
def skipGaps (cs : List Char) : List Char :=
  cs.dropWhile isGap

/-- The characters after a line break. -/
def newline? : List Char → Option (List Char)
  | '\n' :: rest => some rest
  | '\r' :: '\n' :: rest => some rest
  | _ => none

/-- The characters after the end of a line, which can have a comment. -/
def endLine? (cs : List Char) : Option (List Char) :=
  let behind := match skipGaps cs with
    | '#' :: rest => rest.dropWhile isPrintable
    | rest => rest
  match behind with
  | [] => some []
  | rest => newline? rest

/-- The characters after blanks, line breaks and comments. -/
def skipSpread (inComment : Bool) : List Char → List Char
  | [] => []
  | '\n' :: rest => skipSpread false rest
  | '\r' :: '\n' :: rest => skipSpread false rest
  | c :: rest =>
    if inComment then
      if isPrintable c then skipSpread true rest else c :: rest
    else if c = '#' then skipSpread true rest
    else if isGap c then skipSpread false rest
    else c :: rest

/-- Puts a character in front of what was read. -/
def push (c : Char) : Option (List Char × List Char) → Option (List Char × List Char) :=
  Option.map fun (read, rest) => (c :: read, rest)

/-- Cuts at the next quote, behind which the characters follow. A quote that
    comes right after a backslash is passed over if backslashes escape. -/
def cutLine? (quote : Char) (escapes escaped : Bool) :
    List Char → Option (List Char × List Char)
  | [] => none
  | c :: rest =>
    if c = quote ∧ !escaped then some ([], rest)
    else push c (cutLine? quote escapes (escapes && c = '\\' && !escaped) rest)

/-- Cuts at the next three quotes. Up to two quotes in front of these belong to
    the text. -/
def cutLines? (quote : Char) (escapes escaped : Bool) :
    List Char → Option (List Char × List Char)
  | [] => none
  | c :: rest =>
    let goOn := push c (cutLines? quote escapes (escapes && c = '\\' && !escaped) rest)
    if c = quote ∧ !escaped then
      match rest with
      | b :: a :: rest =>
        if b = quote ∧ a = quote then
          let extra := (rest.take 2).takeWhile (· = quote)
          some (extra, rest.drop extra.length)
        else goOn
      | _ => goOn
    else goOn

/-- The character that an escape of one letter stands for. -/
def letterEscape? : Char → Option Char
  | 'b' => some '\x08'
  | 't' => some '\t'
  | 'n' => some '\n'
  | 'f' => some '\x0c'
  | 'r' => some '\r'
  | 'e' => some '\x1b'
  | '"' => some '"'
  | '\\' => some '\\'
  | _ => none

/-- The number of digits behind the letter of an escape by number. -/
def escapeDigits? : Char → Option Nat
  | 'x' => some 2
  | 'u' => some 4
  | 'U' => some 8
  | _ => none

/-- Where the undoing of escapes is: outside of an escape, behind a backslash,
    among the digits of an escape by number, or in the gap that a backslash at
    the end of a line makes, with whether the line has ended. -/
inductive EscapePlace where
  | outside
  | begun
  | digits (missing value : Nat)
  | gap (lineEnded : Bool)
deriving DecidableEq

/-- The text of the characters between double quotes. Only a text on several
    lines may have line breaks, and gaps. -/
def unescape? (lines : Bool) : EscapePlace → List Char → Option (List Char)
  | .outside, [] => some []
  | .gap true, [] => some []
  | _, [] => none
  | .begun, c :: rest =>
    match letterEscape? c, escapeDigits? c with
    | some e, _ => (unescape? lines .outside rest).map (e :: ·)
    | none, some count => unescape? lines (.digits count 0) rest
    | none, none =>
      if lines && (isGap c || c = '\r') then unescape? lines (.gap false) rest
      else if lines && c = '\n' then unescape? lines (.gap true) rest
      else none
  | .digits missing value, c :: rest =>
    match Text.hexValue? c with
    | none => none
    | some digit =>
      let value := value * 16 + digit
      if 1 < missing then unescape? lines (.digits (missing - 1) value) rest
      else if value.isValidChar then
        (unescape? lines .outside rest).map (Char.ofNat value :: ·)
      else none
  | .gap ended, c :: rest =>
    if c = '\n' then unescape? lines (.gap true) rest
    else if isGap c || c = '\r' then unescape? lines (.gap ended) rest
    else if !ended then none
    else if c = '\\' then unescape? lines .begun rest
    else if isPrintable c then (unescape? lines .outside rest).map (c :: ·)
    else none
  | .outside, c :: rest =>
    if c = '\\' then unescape? lines .begun rest
    else if isPrintable c || lines && (c = '\n' || c = '\r') then
      (unescape? lines .outside rest).map (c :: ·)
    else none

/-- Whether every carriage return is a part of a line break. -/
def returnsPaired : List Char → Bool
  | [] => true
  | '\r' :: '\n' :: rest => returnsPaired rest
  | c :: rest => c ≠ '\r' && returnsPaired rest

/-- The text between single quotes, which is what is written there. -/
def literal? (lines : Bool) (cs : List Char) : Option (List Char) :=
  if cs.all fun c => isPrintable c || lines && (c = '\n' || c = '\r') then some cs else none

/-- The characters after the line break that may follow three quotes. -/
def dropFirstBreak (cs : List Char) : List Char :=
  (newline? cs).getD cs

/-- A text on one line, from its first quote on. -/
def lineText? : List Char → Option (String × List Char)
  | '"' :: cs => do
    let (body, rest) ← cutLine? '"' true false cs
    let text ← unescape? false .outside body
    return (String.ofList text, rest)
  | '\'' :: cs => do
    let (body, rest) ← cutLine? '\'' false false cs
    let text ← literal? false body
    return (String.ofList text, rest)
  | _ => none

/-- A text in any of the four ways, from its first quote on. -/
def text? : List Char → Option (String × List Char)
  | '"' :: '"' :: '"' :: cs => do
    let (body, rest) ← cutLines? '"' true false (dropFirstBreak cs)
    if returnsPaired body then
      let text ← unescape? true .outside body
      return (String.ofList text, rest)
    else none
  | '\'' :: '\'' :: '\'' :: cs => do
    let (body, rest) ← cutLines? '\'' false false (dropFirstBreak cs)
    if returnsPaired body then
      let text ← literal? true body
      return (String.ofList text, rest)
    else none
  | cs => lineText? cs

/-- Whether a character can stand in a key without quotes. -/
def isBareKey (c : Char) : Bool :=
  c.isAlphanum || c = '_' || c = '-'

/-- One part of a key. -/
def keyPart? (cs : List Char) : Option (String × List Char) :=
  let bare := cs.takeWhile isBareKey
  if bare.isEmpty then lineText? cs
  else some (String.ofList bare, cs.dropWhile isBareKey)

/-- The parts of a key between dots, and the characters after the blanks behind
    it. The first number bounds the parts. -/
def keyParts? : Nat → List Char → Option (List String × List Char)
  | 0, _ => none
  | count + 1, cs => do
    let (part, rest) ← keyPart? (skipGaps cs)
    match skipGaps rest with
    | '.' :: rest =>
      let (parts, rest) ← keyParts? count rest
      return (part :: parts, rest)
    | rest => return ([part], rest)

/-- A key: the parts in front, the last one, and what follows. -/
def keyPath? (cs : List Char) : Option (List String × String × List Char) := do
  let (parts, rest) ← keyParts? (cs.length + 1) cs
  let last ← parts.getLast?
  return (parts.dropLast, last, rest)

end Toml

end TestbedReport
