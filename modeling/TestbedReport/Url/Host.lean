import TestbedReport.Decimal.Whole
import TestbedReport.Url.Domain

/-!
# Hosts

The host of a URL is a domain name or an address. An address of version 6 stands
in brackets and is written with its longest run of zeros left out. An address of
version 4 has older habits: a name whose last part is a number is one, in up to
four parts, each in decimal, octal or hexadecimal, where the last part fills all
the bytes that are left. Both are brought to one form, so that two spellings of
one host give one URL.

## Main definitions

* `Host`: A domain name or an address.
* `Ipv4.parse`, `Ipv6.parse`: Reading addresses.
* `Host.parse`: The host of a URL whose scheme is special.
* `Host.parseLoose`: The host of any other URL.
* `Host.write`: A host as characters.
-/

namespace TestbedReport

/-- A domain name, or an address: a number of 32 bits, or eight of 16. -/
inductive Host where
  | domain (name : String)
  | ipv4 (address : Nat)
  | ipv6 (groups : List Nat)
deriving DecidableEq

namespace Ipv4

/-- The number of a part: hexadecimal behind `0x`, octal behind another zero,
    else decimal. A bare `0x` is zero. -/
def part? (cs : List Char) : Option Nat :=
  match cs with
  | [] => none
  | '0' :: 'x' :: digits => Text.valueIn? 16 digits
  | '0' :: 'X' :: digits => Text.valueIn? 16 digits
  | '0' :: c :: digits => Text.valueIn? 8 (c :: digits)
  | digits => Text.valueIn? 10 digits

/-- Parts between dots, where one dot at the end does not count. -/
def parts (name : List Char) : List (List Char) :=
  let all := Text.splitOn '.' name
  if 1 < all.length ∧ all.getLast? = some [] then all.dropLast else all

/-- Whether a name is meant as an address: its last part is a number. -/
def isMeant (name : List Char) : Bool :=
  match (parts name).getLast? with
  | none => false
  | some last => (!last.isEmpty && last.all Char.isDigit) || (part? last).isSome

/-- The address of a name that is meant as one. -/
def parse (name : List Char) : Except UrlFault Nat :=
  match (parts name).mapM part? with
  | none => .error .ipv4
  | some numbers =>
    match numbers.getLast? with
    | none => .error .ipv4
    | some last =>
      let leading := numbers.dropLast
      if 3 < leading.length ∨ leading.any (255 < ·) ∨ Nat.pow 256 (4 - leading.length) ≤ last then
        .error .ipv4
      else
        let high := leading.foldl (fun value byte => value * 256 + byte) 0
        .ok (high * Nat.pow 256 (4 - leading.length) + last)

/-- Four bytes in decimal with dots between them. -/
def write (address : Nat) : List Char :=
  let byte (n : Nat) := Decimal.ofNat (address / Nat.pow 256 n % 256)
  byte 3 ++ '.' :: byte 2 ++ '.' :: byte 1 ++ '.' :: byte 0

end Ipv4

namespace Ipv6

/-- A group of one to four hexadecimal digits. -/
def group? (cs : List Char) : Option Nat :=
  if cs.isEmpty || 4 < cs.length then none else Text.valueIn? 16 cs

/-- A byte of an address of version 4 inside of one of version 6: decimal,
    without leading zeros. -/
def byte? (cs : List Char) : Option Nat :=
  match Decimal.toNat? cs with
  | none => none
  | some n => if n ≤ 255 ∧ (cs.length = 1 ∨ cs.head? ≠ some '0') then some n else none

/-- The two groups of an address of version 4 at the end. -/
def dotted? (cs : List Char) : Option (List Nat) :=
  match (Text.splitOn '.' cs).mapM byte? with
  | some [a, b, c, d] => some [a * 256 + b, c * 256 + d]
  | _ => none

/-- The groups between colons. The last piece may be dotted if that is
    allowed. -/
def groups? (mayDot : Bool) : List (List Char) → Option (List Nat)
  | [] => some []
  | [last] =>
    if mayDot && last.contains '.' then dotted? last else (group? last).map ([·])
  | piece :: rest => do
    let group ← group? piece
    let groups ← groups? mayDot rest
    return group :: groups

/-- The groups of a text; an empty one has none. -/
def groupsOf? (mayDot : Bool) (cs : List Char) : Option (List Nat) :=
  if cs.isEmpty then some [] else groups? mayDot (Text.splitOn ':' cs)

/-- Splits a text at its first double colon. -/
def splitDouble : List Char → Option (List Char × List Char)
  | [] => none
  | c :: rest =>
    if c = ':' ∧ rest.head? = some ':' then some ([], rest.drop 1)
    else (splitDouble rest).map fun (before, after) => (c :: before, after)

/-- The address of the text between brackets. A double colon stands for as many
    zero groups as are missing, and for one at least. -/
def parse (cs : List Char) : Except UrlFault (List Nat) :=
  let groups := match splitDouble cs with
    | none => do
      let groups ← groups? true (Text.splitOn ':' cs)
      if groups.length = 8 then some groups else none
    | some (before, after) => do
      let front ← groupsOf? false before
      let back ← groupsOf? true after
      let known := front.length + back.length
      if known < 8 then some (front ++ List.replicate (8 - known) 0 ++ back) else none
  match groups with
  | some groups => .ok groups
  | none => .error .ipv6

/-- Where the longest run of zero groups begins and how long it is; the first
    one of equal length. -/
def zeroRun (groups : List Nat) : Nat × Nat :=
  (List.range groups.length).foldl (fun best start =>
    let run := ((groups.drop start).takeWhile (· = 0)).length
    if best.2 < run then (start, run) else best) (0, 0)

/-- Groups in hexadecimal with colons between them. -/
def writeGroups : List Nat → List Char
  | [] => []
  | [group] => Nat.toDigits 16 group
  | group :: rest => Nat.toDigits 16 group ++ ':' :: writeGroups rest

/-- An address with its longest run of two or more zero groups left out. -/
def write (groups : List Nat) : List Char :=
  let (start, run) := zeroRun groups
  if run < 2 then writeGroups groups
  else writeGroups (groups.take start) ++ [':', ':'] ++ writeGroups (groups.drop (start + run))

end Ipv6

namespace Host

/-- The address in brackets, if a host begins with a bracket. -/
def bracketed? (cs : List Char) : Option (Except UrlFault Host) :=
  match cs with
  | '[' :: rest =>
    some (if rest.getLast? = some ']' then (Ipv6.parse rest.dropLast).map .ipv6 else .error .ipv6)
  | _ => none

/-- The host of a URL whose scheme is special. -/
def parse (cs : List Char) : Except UrlFault Host :=
  match bracketed? cs with
  | some host => host
  | none => do
    let name ← Domain.ofBytes (Percent.decode (cs.flatMap String.utf8EncodeChar))
    if Ipv4.isMeant name.toList then (Ipv4.parse name.toList).map .ipv4 else .ok (.domain name)

/-- What the host of any other URL must not contain. -/
def isForbidden (c : Char) : Bool :=
  ['\x00', '\t', '\n', '\r', ' ', '#', '/', ':', '<', '>', '?', '@', '[', '\\', ']', '^',
    '|'].contains c

/-- The host of any other URL: a name that is taken as it is. -/
def parseLoose (cs : List Char) : Except UrlFault Host :=
  match bracketed? cs with
  | some host => host
  | none =>
    if cs.any isForbidden then .error .hostCharacter
    else .ok (.domain (String.ofList (Percent.encode Percent.isControl cs)))

/-- A host as characters. -/
def write : Host → List Char
  | .domain name => name.toList
  | .ipv4 address => Ipv4.write address
  | .ipv6 groups => '[' :: Ipv6.write groups ++ [']']

end Host

end TestbedReport
