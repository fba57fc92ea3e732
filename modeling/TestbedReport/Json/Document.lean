import TestbedReport.Json.Basic
import TestbedReport.Text.Digit

/-!
# JSON Documents as Written

A document is read in two steps. The first finds its structure: brackets, keys,
literals, and the pieces of texts and numbers. The second, in `Json.Value`, says
what the pieces are worth and can still fail, on a number out of range, on half
of a surrogate pair or on too deep a nesting. Between the two a document is a
`Document`, which holds everything that was written and nothing else. The
division matters where a part of a document is to be passed over: its structure
must be right but its pieces are never valued.

The structure is found by a machine that takes one character at a time and keeps
what is open around it on a stack. It needs no bound on the number of steps and
no look ahead, and reading a text piece by piece comes to the same as reading
the whole.

## Main definitions

* `TextPiece`: A character of a text, or half of a surrogate pair.
* `NumberText`: The parts of a number as written.
* `Document`: A document as written.
* `Reader`: The state of the machine.
* `Reader.step`: One character.
* `Document.read?`: The document of a text.
-/

namespace TestbedReport

namespace Json

/-- A character of a text, or one half of a surrogate pair that was escaped. -/
inductive TextPiece where
  | char (c : Char)
  | half (code : Nat)
deriving DecidableEq

/-- A number by its parts. An absent fraction is empty, since a written one has
    a digit; the exponent has a sign and digits. -/
structure NumberText where
  negative : Bool
  whole : List Char
  fraction : List Char
  exponent : Option (Bool × List Char)
deriving DecidableEq

/-- A document as written: members with their repeats, numbers and texts in
    pieces. -/
inductive Document where
  | null
  | bool (value : Bool)
  | number (parts : NumberText)
  | text (pieces : List TextPiece)
  | array (items : List Document)
  | object (members : List (List TextPiece × Document))

/-- An enclosing array or object that waits for a value. What came before is
    held last first. -/
inductive Frame where
  | array (before : List Document)
  | object (before : List (List TextPiece × Document)) (key : List TextPiece)

/-- How far a number has come. -/
inductive NumberPhase where
  | sign
  | zero
  | whole
  | point
  | fraction
  | exponentMark
  | exponentSign
  | exponent
deriving DecidableEq

/-- Whether a number may end here. -/
def NumberPhase.complete : NumberPhase → Bool
  | .zero | .whole | .fraction | .exponent => true
  | _ => false

/-- Where in a text the reading is: between characters, behind a backslash, or
    inside of a four-digit escape with the digits read so far. -/
inductive Escape where
  | plain
  | backslash
  | code (digits : List Nat)

/-- Where the reading is, apart from what is open around it. What has been read
    of an array, object or text is held last first. A text is a key when it
    carries the members before it. -/
inductive Place where
  | value
  | firstItem
  | key (first : Bool) (before : List (List TextPiece × Document))
  | colon (before : List (List TextPiece × Document)) (key : List TextPiece)
  | afterItem (items : List Document)
  | afterMember (members : List (List TextPiece × Document))
  | word (rest : List Char) (value : Document)
  | number (phase : NumberPhase) (parts : NumberText)
  | text (keyAfter : Option (List (List TextPiece × Document))) (pieces : List TextPiece)
      (escape : Escape)
  | finished (value : Document)

/-- The state of reading: the place and the enclosing frames, innermost first. -/
structure Reader where
  place : Place
  frames : List Frame

namespace Reader

/-- Before the first character a value is due. -/
def start : Reader :=
  ⟨.value, []⟩

/-- The four blanks a document may have between its parts. -/
def isSpace (c : Char) : Bool :=
  c = ' ' || c = '\t' || c = '\n' || c = '\r'

/-- A complete value goes to the frame that waits for it, or ends the
    document. -/
def deliver (value : Document) : List Frame → Reader
  | [] => ⟨.finished value, []⟩
  | .array before :: frames => ⟨.afterItem (value :: before), frames⟩
  | .object before key :: frames => ⟨.afterMember ((key, value) :: before), frames⟩

/-- The first character of a value. -/
def openValue (frames : List Frame) (c : Char) : Option Reader :=
  if c = '"' then some ⟨.text none [] .plain, frames⟩
  else if c = '[' then some ⟨.firstItem, frames⟩
  else if c = '\x7b' then some ⟨.key true [], frames⟩
  else if c = 'n' then some ⟨.word "ull".toList .null, frames⟩
  else if c = 't' then some ⟨.word "rue".toList (.bool true), frames⟩
  else if c = 'f' then some ⟨.word "alse".toList (.bool false), frames⟩
  else if c = '-' then some ⟨.number .sign ⟨true, [], [], none⟩, frames⟩
  else if c = '0' then some ⟨.number .zero ⟨false, [c], [], none⟩, frames⟩
  else if c.isDigit then some ⟨.number .whole ⟨false, [c], [], none⟩, frames⟩
  else none

/-- A character behind a complete value. -/
def closeValue (place : Place) (frames : List Frame) (c : Char) : Option Reader :=
  if isSpace c then some ⟨place, frames⟩
  else match place with
    | .afterItem items =>
      if c = ',' then some ⟨.value, .array items :: frames⟩
      else if c = ']' then some (deliver (.array items.reverse) frames)
      else none
    | .afterMember members =>
      if c = ',' then some ⟨.key false members, frames⟩
      else if c = '\x7d' then some (deliver (.object members.reverse) frames)
      else none
    | _ => none

/-- One more character of a number, if it belongs to it. A leading zero stands
    alone, and a point and an exponent need a digit behind them. -/
def extendNumber (phase : NumberPhase) (parts : NumberText) (c : Char) :
    Option (NumberPhase × NumberText) :=
  let toWhole := { parts with whole := parts.whole ++ [c] }
  let toFraction := { parts with fraction := parts.fraction ++ [c] }
  let toExponent := match parts.exponent with
    | none => { parts with exponent := some (false, [c]) }
    | some (negative, digits) => { parts with exponent := some (negative, digits ++ [c]) }
  let isMark := c = 'e' || c = 'E'
  match phase with
  | .sign =>
    if c = '0' then some (.zero, toWhole) else if c.isDigit then some (.whole, toWhole) else none
  | .zero =>
    if c = '.' then some (.point, parts) else if isMark then some (.exponentMark, parts) else none
  | .whole =>
    if c.isDigit then some (.whole, toWhole)
    else if c = '.' then some (.point, parts)
    else if isMark then some (.exponentMark, parts)
    else none
  | .point => if c.isDigit then some (.fraction, toFraction) else none
  | .fraction =>
    if c.isDigit then some (.fraction, toFraction)
    else if isMark then some (.exponentMark, parts)
    else none
  | .exponentMark =>
    if c = '+' then some (.exponentSign, { parts with exponent := some (false, []) })
    else if c = '-' then some (.exponentSign, { parts with exponent := some (true, []) })
    else if c.isDigit then some (.exponent, toExponent)
    else none
  | .exponentSign => if c.isDigit then some (.exponent, toExponent) else none
  | .exponent => if c.isDigit then some (.exponent, toExponent) else none

/-- The piece of a four-digit escape. -/
def pieceOfCode (code : Nat) : TextPiece :=
  if 0xD800 ≤ code ∧ code ≤ 0xDFFF then .half code else .char (Char.ofNat code)

/-- The character of a one-letter escape. -/
def escaped? (c : Char) : Option Char :=
  match c with
  | '"' => some '"'
  | '\\' => some '\\'
  | '/' => some '/'
  | 'b' => some '\x08'
  | 'f' => some '\x0c'
  | 'n' => some '\n'
  | 'r' => some '\r'
  | 't' => some '\t'
  | _ => none

/-- A character inside of a text. A control character has to be escaped. -/
def extendText (keyAfter : Option (List (List TextPiece × Document))) (pieces : List TextPiece)
    (escape : Escape) (frames : List Frame) (c : Char) : Option Reader :=
  match escape with
  | .plain =>
    if c = '"' then
      match keyAfter with
      | none => some (deliver (.text pieces.reverse) frames)
      | some before => some ⟨.colon before pieces.reverse, frames⟩
    else if c = '\\' then some ⟨.text keyAfter pieces .backslash, frames⟩
    else if c.toNat < 0x20 then none
    else some ⟨.text keyAfter (.char c :: pieces) .plain, frames⟩
  | .backslash =>
    if c = 'u' then some ⟨.text keyAfter pieces (.code []), frames⟩
    else (escaped? c).map fun e => ⟨.text keyAfter (.char e :: pieces) .plain, frames⟩
  | .code digits =>
    (Text.hexValue? c).map fun d =>
      let digits := digits ++ [d]
      if digits.length = 4 then
        let code := digits.foldl (fun value digit => value * 16 + digit) 0
        ⟨.text keyAfter (pieceOfCode code :: pieces) .plain, frames⟩
      else ⟨.text keyAfter pieces (.code digits), frames⟩

/-- One character. There is no next state when it has no place in a document. -/
def step (r : Reader) (c : Char) : Option Reader :=
  match r.place with
  | .value => if isSpace c then some r else openValue r.frames c
  | .firstItem =>
    if isSpace c then some r
    else if c = ']' then some (deliver (.array []) r.frames)
    else openValue (.array [] :: r.frames) c
  | .key first before =>
    if isSpace c then some r
    else if c = '"' then some ⟨.text (some before) [] .plain, r.frames⟩
    else if first && c = '\x7d' then some (deliver (.object []) r.frames)
    else none
  | .colon before key =>
    if isSpace c then some r
    else if c = ':' then some ⟨.value, .object before key :: r.frames⟩
    else none
  | .word rest value =>
    match rest with
    | [] => none
    | [last] => if c = last then some (deliver value r.frames) else none
    | next :: rest => if c = next then some ⟨.word rest value, r.frames⟩ else none
  | .number phase parts =>
    match extendNumber phase parts c with
    | some (phase, parts) => some ⟨.number phase parts, r.frames⟩
    | none =>
      if phase.complete then
        -- The number ends before this character.
        let closed := deliver (.number parts) r.frames
        closeValue closed.place closed.frames c
      else none
  | .text keyAfter pieces escape => extendText keyAfter pieces escape r.frames c
  | place => closeValue place r.frames c

/-- The document, if the text may end here. -/
def finish (r : Reader) : Option Document :=
  match r.place, r.frames with
  | .finished value, _ => some value
  | .number phase parts, [] => if phase.complete then some (.number parts) else none
  | _, _ => none

end Reader

/-- The document of a text, if it has the structure of one. -/
def Document.read? (cs : List Char) : Option Document :=
  (cs.foldlM Reader.step Reader.start).bind Reader.finish

end Json

end TestbedReport
