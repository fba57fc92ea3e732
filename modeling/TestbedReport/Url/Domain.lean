import TestbedReport.Url.Fault
import TestbedReport.Url.Percent
import TestbedReport.Text.Split
import TestbedReport.Url.Punycode

/-!
# Domain Names

The host of a URL is a domain name in ASCII. Letters are made small, and what
could be mistaken for a part of the URL around the name is refused. A label with
characters outside of ASCII is brought to a common form first and then written
in Punycode; a label that claims to be in Punycode has to be.

The common form is Unicode's mapping for domain names, restricted to what names
are made of: wide forms become plain, invisible characters vanish, letters with
case become small. A letter without case is taken as it is.

## Main definitions

* `Domain.mapChar`: A character in its common form.
* `Domain.isForbidden`: What a domain name must not contain.
* `Domain.ofBytes`: The domain name of the bytes of a host.
-/

namespace TestbedReport

namespace Domain

/-- Characters that have no meaning in a name and vanish from it. -/
def isIgnored (c : Char) : Bool :=
  let n := c.toNat
  n = 0xAD || n = 0x34F || n = 0x200B || n = 0x2060 || n = 0xFEFF ||
    (0x180B ≤ n && n ≤ 0x180F) || (0xFE00 ≤ n && n ≤ 0xFE0F)

/-- Characters that no name may have: controls, separators, specials, and what
    is left to private use or to no use at all. -/
def isDisallowed (c : Char) : Bool :=
  let n := c.toNat
  (0x80 ≤ n && n ≤ 0x9F) || (0x200C ≤ n && n ≤ 0x200F) || (0x2028 ≤ n && n ≤ 0x202E) ||
    (0x2061 ≤ n && n ≤ 0x206F) || (0xE000 ≤ n && n ≤ 0xF8FF) || (0xFDD0 ≤ n && n ≤ 0xFDEF) ||
    (0xFFF0 ≤ n && n ≤ 0xFFFF) || 0xFFFE ≤ n % 0x10000 || 0xE0000 ≤ n

/-- A letter in lower case, for the alphabets with case that names use. -/
def lowerChar (c : Char) : Char :=
  let n := c.toNat
  if n < 0x80 then c.toLower
  else if 0xC0 ≤ n ∧ n ≤ 0xDE ∧ n ≠ 0xD7 then Char.ofNat (n + 0x20)
  else if 0x100 ≤ n ∧ n ≤ 0x12F ∧ n % 2 = 0 then Char.ofNat (n + 1)
  else if 0x139 ≤ n ∧ n ≤ 0x148 ∧ n % 2 = 1 then Char.ofNat (n + 1)
  else if 0x14A ≤ n ∧ n ≤ 0x177 ∧ n % 2 = 0 then Char.ofNat (n + 1)
  else if 0x179 ≤ n ∧ n ≤ 0x17E ∧ n % 2 = 1 then Char.ofNat (n + 1)
  else if n = 0x178 then Char.ofNat 0xFF
  else if 0x391 ≤ n ∧ n ≤ 0x3A9 then Char.ofNat (n + 0x20)
  else if 0x410 ≤ n ∧ n ≤ 0x42F then Char.ofNat (n + 0x20)
  else if 0x400 ≤ n ∧ n ≤ 0x40F then Char.ofNat (n + 0x50)
  else c

/-- A character in its common form: nothing, or one character. -/
def mapChar (c : Char) : List Char :=
  let n := c.toNat
  if isIgnored c then []
  else if n = 0x3002 ∨ n = 0xFF0E ∨ n = 0xFF61 then ['.']
  else if 0xFF01 ≤ n ∧ n ≤ 0xFF5E then [lowerChar (Char.ofNat (n - 0xFEE0))]
  else if n = 0xA0 ∨ n = 0x3000 ∨ (0x2000 ≤ n ∧ n ≤ 0x200A) ∨ n = 0x202F ∨ n = 0x205F then [' ']
  else [lowerChar c]

/-- What an ASCII domain name must not contain. -/
def isForbidden (c : Char) : Bool :=
  c.toNat ≤ 0x20 || c.toNat = 0x7F ||
    ['#', '%', '/', ':', '<', '>', '?', '@', '[', '\\', ']', '^', '|'].contains c

/-- The mark of a label in Punycode. -/
def punycodeMark : List Char := "xn--".toList

/-- A label may begin with any character but a combining mark. -/
def startsWell : List Char → Bool
  | [] => true
  | c :: _ => !(0x300 ≤ c.toNat && c.toNat ≤ 0x36F)

/-- Whether a label without ASCII form is one that could have been written in
    Punycode. -/
def isLabel (label : List Char) : Bool :=
  label.any (0x80 ≤ ·.toNat) && startsWell label &&
    label.all fun c => !isDisallowed c && mapChar c = [c] && (0x80 ≤ c.toNat || !isForbidden c)

/-- A label in ASCII, if it has a form there. -/
def labelToAscii (label : List Char) : Except UrlFault (List Char) :=
  if label.all (·.toNat < 0x80) then
    if punycodeMark.isPrefixOf label then
      match Punycode.decode? (label.drop punycodeMark.length) with
      | some decoded => if isLabel decoded then .ok label else .error .domain
      | none => .error .domain
    else if label.any isForbidden then .error .domain
    else .ok label
  else if isLabel label then .ok (punycodeMark ++ Punycode.encode label)
  else .error .domain

/-- Labels with dots between them. -/
def joinLabels : List (List Char) → List Char
  | [] => []
  | [label] => label
  | label :: rest => label ++ '.' :: joinLabels rest

/-- The domain name of the bytes of a host. -/
def ofBytes (bytes : List UInt8) : Except UrlFault String :=
  match Utf8.decode? bytes with
  | none => .error .domain
  | some text => do
    let labels ← (Text.splitOn '.' (text.toList.flatMap mapChar)).mapM labelToAscii
    let name := joinLabels labels
    if name.isEmpty then .error .emptyHost else .ok (String.ofList name)

end Domain

end TestbedReport
