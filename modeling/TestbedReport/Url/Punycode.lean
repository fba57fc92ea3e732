/-!
# Punycode

A label of a host name with characters outside of ASCII is written in ASCII. The
ASCII characters come first, and behind a hyphen follows a chain of digits that
says which other characters go where. The characters are taken in ascending
order; each digit group is the distance from one insertion to the next, counted
over all positions and all values in between, in a number system whose digit
weights adapt to the distances so far.

Reading takes the groups one by one. It gives up on a character that is no
digit, on a group that breaks off, and on a value that is no character.

## Main definitions

* `Punycode.encode`: A label in ASCII.
* `Punycode.decode?`: The label of its ASCII form.
-/

namespace TestbedReport

namespace Punycode

/-- The digit of a value below thirty-six: letters first, then figures. -/
def digit (value : Nat) : Char :=
  if value < 26 then Char.ofNat ('a'.toNat + value) else Char.ofNat ('0'.toNat + (value - 26))

/-- The value of a digit. Case does not matter. -/
def digitValue? (c : Char) : Option Nat :=
  let c := c.toLower
  if 'a' ≤ c ∧ c ≤ 'z' then some (c.toNat - 'a'.toNat)
  else if '0' ≤ c ∧ c ≤ '9' then some (c.toNat - '0'.toNat + 26)
  else none

/-- The weight threshold of the digit at position `k`. -/
def threshold (k bias : Nat) : Nat :=
  if k ≤ bias + 1 then 1 else if bias + 26 ≤ k then 26 else k - bias

/-- Brings a distance below the bound of the bias, counting the digits that
    takes. -/
def dampen : Nat → Nat → Nat → Nat × Nat
  | 0, delta, k => (delta, k)
  | steps + 1, delta, k => if 455 < delta then dampen steps (delta / 35) (k + 36) else (delta, k)

/-- The bias for the next group, from the distance just written. -/
def adapt (delta count : Nat) (first : Bool) : Nat :=
  let halved := if first then delta / 700 else delta / 2
  let (rest, k) := dampen delta (halved + halved / count) 0
  k + 36 * rest / (rest + 38)

/-- The digits of a distance. Every step divides what is left, so the distance
    itself bounds the steps. -/
def writeGroup (bias : Nat) : Nat → Nat → Nat → List Char
  | 0, q, _ => [digit q]
  | steps + 1, q, k =>
    let t := threshold k bias
    if q < t then [digit q]
    else digit (t + (q - t) % (36 - t)) :: writeGroup bias steps ((q - t) / (36 - t)) (k + 36)

/-- What is carried from one insertion to the next. -/
structure Insertion where
  written : List Char
  delta : Nat
  bias : Nat
  count : Nat

/-- Goes over the label once for the character value `current`: smaller ones
    are stepped over, and for each equal one a group is written. -/
def insertAll (basicCount current : Nat) (label : List Char) (start : Insertion) : Insertion :=
  label.foldl (fun state c =>
    if c.toNat < current then { state with delta := state.delta + 1 }
    else if c.toNat = current then
      { written := state.written ++ writeGroup state.bias state.delta state.delta 36
        delta := 0
        bias := adapt state.delta (state.count + 1) (state.count = basicCount)
        count := state.count + 1 }
    else state) start

/-- A label in ASCII, without the mark that says so. -/
def encode (label : List Char) : List Char :=
  let basic := label.filter fun c => c.toNat < 0x80
  let values := ((label.map Char.toNat).filter (0x80 ≤ ·)).eraseDups.mergeSort
  let separated := if basic.isEmpty then [] else basic ++ ['-']
  let (final, _) := values.foldl (fun (state, next) value =>
    let reached := { state with delta := state.delta + (value - next) * (state.count + 1) }
    let state := insertAll basic.length value label reached
    ({ state with delta := state.delta + 1 }, value + 1))
    ((⟨[], 0, 72, basic.length⟩ : Insertion), 0x80)
  separated ++ final.written

/-- The distance of the group at the front, with what follows. -/
def readGroup? (bias : Nat) : List Char → Nat → Nat → Nat → Option (Nat × List Char)
  | [], _, _, _ => none
  | c :: rest, k, weight, sum =>
    (digitValue? c).bind fun value =>
      let t := threshold k bias
      let sum := sum + value * weight
      if value < t then some (sum, rest) else readGroup? bias rest (k + 36) (weight * (36 - t)) sum

/-- Inserts the characters of the groups into a label. Every group has a digit,
    so the length of the input bounds the steps. -/
def insertGroups? : Nat → List Char → List Char → Nat → Nat → Nat → Option (List Char)
  | _, [], label, _, _, _ => some label
  | 0, _ :: _, _, _, _, _ => none
  | steps + 1, input, label, value, position, bias =>
    (readGroup? bias input 36 1 position).bind fun (sum, rest) =>
      let count := label.length + 1
      let next := value + sum / count
      let place := sum % count
      if next.isValidChar then
        insertGroups? steps rest (label.insertIdx place (Char.ofNat next)) next (place + 1)
          (adapt (sum - position) count (position = 0))
      else none

/-- The label of its ASCII form. The last hyphen ends the ASCII characters. -/
def decode? (cs : List Char) : Option (List Char) :=
  let groups := (cs.reverse.takeWhile (· ≠ '-')).reverse
  let basic := cs.take (cs.length - groups.length - 1)
  if basic.all (·.toNat < 0x80) then insertGroups? groups.length groups basic 0x80 0 72 else none

end Punycode

end TestbedReport
