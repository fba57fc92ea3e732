import TestbedReport.Text.Utf8
import TestbedReport.Text.Digit

/-!
# Percent Encoding

A URL is made of ASCII characters. What cannot stand for itself in some part of
it is written as the bytes of its UTF-8 form, each as a percent sign and two
hexadecimal digits. Which characters these are depends on the part, so each part
has a predicate; characters outside of ASCII belong to all of them.

## Main definitions

* `Percent.encodeByte`, `Percent.encode`: Bytes and texts in percent form.
* `Percent.decode`: Bytes without their percent forms.
* `Percent.inQuery`, `Percent.inPath`, …: What has to be encoded where.
-/

namespace TestbedReport

namespace Percent

/-- A hexadecimal digit in upper case. -/
def upperHex (n : Nat) : Char :=
  (Nat.digitChar n).toUpper

/-- A byte as a percent sign and two digits. -/
def encodeByte (byte : UInt8) : List Char :=
  ['%', upperHex (byte.toNat / 16), upperHex (byte.toNat % 16)]

/-- A character, in percent form if the part of the URL asks for it. -/
def encodeChar (mustEncode : Char → Bool) (c : Char) : List Char :=
  if 0x80 ≤ c.toNat || mustEncode c then (String.utf8EncodeChar c).flatMap encodeByte else [c]

/-- A text in a part of a URL. -/
def encode (mustEncode : Char → Bool) (cs : List Char) : List Char :=
  cs.flatMap (encodeChar mustEncode)

/-- The value of a hexadecimal digit given as a byte. -/
def hexValue? (byte : UInt8) : Option Nat :=
  Text.hexValue? (Char.ofNat byte.toNat)

/-- The byte that two digits at the front stand for. -/
def leadingByte? : List UInt8 → Option UInt8
  | high :: low :: _ =>
    match hexValue? high, hexValue? low with
    | some h, some l => some (UInt8.ofNat (h * 16 + l))
    | _, _ => none
  | _ => none

/-- The bytes that are meant, after a number of bytes that are spent already. -/
def decodeFrom : Nat → List UInt8 → List UInt8
  | _, [] => []
  | spent + 1, _ :: rest => decodeFrom spent rest
  | 0, byte :: rest =>
    if byte = 0x25 then
      match leadingByte? rest with
      | some meant => meant :: decodeFrom 2 rest
      | none => byte :: decodeFrom 0 rest
    else byte :: decodeFrom 0 rest

/-- The bytes that are meant. A percent sign without two digits behind it means
    itself. -/
def decode (bytes : List UInt8) : List UInt8 :=
  decodeFrom 0 bytes

/-- Control characters of ASCII. -/
def isControl (c : Char) : Bool :=
  c.toNat < 0x20 || c.toNat = 0x7F

/-- What is encoded in the query of a URL. -/
def inQuery (c : Char) : Bool :=
  isControl c || [' ', '"', '#', '<', '>'].contains c

/-- What is encoded in the query of a URL whose scheme is special. -/
def inSpecialQuery (c : Char) : Bool :=
  inQuery c || c = '\''

/-- What is encoded in the fragment of a URL. -/
def inFragment (c : Char) : Bool :=
  isControl c || [' ', '"', '<', '>', '`'].contains c

/-- What is encoded in the path of a URL. -/
def inPath (c : Char) : Bool :=
  inFragment c || ['#', '?', '\x7b', '\x7d'].contains c

/-- What is encoded in a user name or password. -/
def inUserInfo (c : Char) : Bool :=
  inPath c || ['/', ':', ';', '=', '@', '[', '\\', ']', '^', '|'].contains c

end Percent

end TestbedReport
