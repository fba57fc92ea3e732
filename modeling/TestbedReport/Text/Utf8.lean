/-!
# UTF-8

Bytes reach the report program from two sides: the body of a server's answer,
where an ill-formed sequence is replaced by U+FFFD so that the answer can still
be read, and a settings file, where an ill-formed sequence is an error. One
reader serves both. It walks over the bytes with the state of the sequence it
is inside of and yields, in order, the characters and a `none` for each
ill-formed sequence; the two uses differ only in what they make of the `none`s.

An ill-formed sequence is the longest stretch of bytes that begins some
well-formed sequence, or a single byte where there is none. The byte that ends
the stretch is looked at again as a possible first byte.

## Main definitions

* `encode`: The bytes of a text.
* `Pending`: The state inside of a sequence of several bytes.
* `units`: The characters of a byte string, `none` for each ill-formed sequence.
* `decode?`: The text of a byte string without ill-formed sequences.
* `decodeLossy`: The text with U+FFFD for each ill-formed sequence.
-/

namespace TestbedReport

namespace Utf8

/-- A text as bytes, character after character. -/
def encode (text : String) : List UInt8 :=
  text.toList.flatMap String.utf8EncodeChar

/-- Inside of a sequence: how many bytes are missing, the value read so far,
    and the bounds for the next byte, which the first byte can narrow. -/
structure Pending where
  missing : Nat
  value : Nat
  low : Nat
  high : Nat
deriving DecidableEq

/-- What a byte can do at the start of a sequence: be a character by itself,
    open a longer sequence, or be ill-formed. -/
inductive Opening where
  | whole (c : Char)
  | partly (pending : Pending)
  | illFormed

/-- The reading of a first byte. The narrowed bounds after `E0`, `ED`, `F0` and
    `F4` keep out overlong forms, surrogates and values above U+10FFFF. -/
def opening (byte : UInt8) : Opening :=
  let b := byte.toNat
  if b < 0x80 then .whole (Char.ofNat b)
  else if b < 0xC2 then .illFormed
  else if b < 0xE0 then .partly ⟨1, b - 0xC0, 0x80, 0xBF⟩
  else if b < 0xF0 then
    .partly ⟨2, b - 0xE0, if b = 0xE0 then 0xA0 else 0x80, if b = 0xED then 0x9F else 0xBF⟩
  else if b < 0xF5 then
    .partly ⟨3, b - 0xF0, if b = 0xF0 then 0x90 else 0x80, if b = 0xF4 then 0x8F else 0xBF⟩
  else .illFormed

/-- The characters of the bytes, with `none` for each ill-formed sequence. -/
def unitsFrom : Option Pending → List UInt8 → List (Option Char)
  | none, [] => []
  | some _, [] => [none]
  | none, byte :: rest =>
    match opening byte with
    | .whole c => some c :: unitsFrom none rest
    | .partly pending => unitsFrom (some pending) rest
    | .illFormed => none :: unitsFrom none rest
  | some pending, byte :: rest =>
    let b := byte.toNat
    if pending.low ≤ b ∧ b ≤ pending.high then
      let value := pending.value * 64 + (b - 0x80)
      if pending.missing ≤ 1 then some (Char.ofNat value) :: unitsFrom none rest
      else unitsFrom (some ⟨pending.missing - 1, value, 0x80, 0xBF⟩) rest
    else
      -- The sequence breaks off here and the byte starts anew.
      match opening byte with
      | .whole c => none :: some c :: unitsFrom none rest
      | .partly fresh => none :: unitsFrom (some fresh) rest
      | .illFormed => none :: none :: unitsFrom none rest

/-- The characters of a byte string, with `none` for each ill-formed sequence. -/
def units (bytes : List UInt8) : List (Option Char) :=
  unitsFrom none bytes

/-- The text of a byte string, if it is well-formed throughout. -/
def decode? (bytes : List UInt8) : Option String :=
  ((units bytes).mapM id).map String.ofList

/-- The text of a byte string, with U+FFFD in place of what is ill-formed. -/
def decodeLossy (bytes : List UInt8) : String :=
  String.ofList ((units bytes).map (·.getD '\uFFFD'))

end Utf8

end TestbedReport
