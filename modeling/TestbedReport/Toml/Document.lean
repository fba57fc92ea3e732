import TestbedReport.Toml.Scalar

/-!
# TOML Documents

A document is a sequence of lines: headers, which say which table the following
lines fill, values under keys, and lines with nothing but a comment. A value can
be an array or a table in braces, and those can be spread over several lines.

Values are nested to a limited depth. The other bound in the functions below is
the number of characters, of which every round takes at least one.

## Main definitions

* `value?`: A value of any kind.
* `lines?`: The tables that lines build.
* `Toml.parse?`: The root table of a text.
-/

namespace TestbedReport

namespace Toml

/-- The depth to which values can be nested. -/
def maxDepth : Nat := 80

mutual

/-- A value of any kind, with what follows it. -/
def value? : Nat → Nat → List Char → Option (Toml × List Char)
  | 0, _, _ => none
  | bound + 1, depth, cs =>
    match cs, depth with
    | '[' :: rest, depth + 1 => do
      let (items, rest) ← items? bound depth (skipSpread false rest)
      return (.array items, rest)
    | '\x7b' :: rest, depth + 1 => do
      let (members, rest) ← members? bound depth [] (skipSpread false rest)
      return (.table .braces members, rest)
    | '"' :: _, _ | '\'' :: _, _ => do
      let (content, rest) ← text? cs
      return (.text content, rest)
    | _, _ => scalar? cs

/-- The items of an array up to its bracket. A comma may follow the last one. -/
def items? : Nat → Nat → List Char → Option (List Toml × List Char)
  | 0, _, _ => none
  | bound + 1, depth, cs =>
    match cs with
    | ']' :: rest => some ([], rest)
    | _ => do
      let (item, rest) ← value? bound depth cs
      match skipSpread false rest with
      | ',' :: rest =>
        let (items, rest) ← items? bound depth (skipSpread false rest)
        return (item :: items, rest)
      | ']' :: rest => return ([item], rest)
      | _ => none

/-- The members of a table in braces up to the closing one. A comma may follow
    the last one. -/
def members? : Nat → Nat → Members → List Char → Option (Members × List Char)
  | 0, _, _, _ => none
  | bound + 1, depth, members, cs =>
    match cs with
    | '\x7d' :: rest => some (members, rest)
    | _ => do
      let (front, key, rest) ← keyPath? cs
      let (value, rest) ← value? bound depth (skipGaps (← after? '=' rest))
      let members ← assign? [] front key value members
      match skipSpread false rest with
      | ',' :: rest => members? bound depth members (skipSpread false rest)
      | '\x7d' :: rest => return (members, rest)
      | _ => none

end

/-- A header up to the end of its line: the path to the table, and whether it
    stands in double brackets. -/
def header? (cs : List Char) : Option (List String × String × Bool × List Char) :=
  match cs with
  | '[' :: '[' :: cs => do
    let (front, key, rest) ← keyPath? cs
    let rest ← endLine? (← after? ']' (← after? ']' rest))
    return (front, key, true, rest)
  | '[' :: cs => do
    let (front, key, rest) ← keyPath? cs
    let rest ← endLine? (← after? ']' rest)
    return (front, key, false, rest)
  | _ => none

/-- A value under a key up to the end of its line. -/
def assignment? (cs : List Char) : Option (List String × String × Toml × List Char) := do
  let (front, key, rest) ← keyPath? cs
  let (value, rest) ← value? (2 * rest.length + 2) maxDepth (skipGaps (← after? '=' rest))
  return (front, key, value, ← endLine? rest)

/-- The tables that lines build, given the path to the table they fill. -/
def lines? : Nat → List String → Members → List Char → Option Members
  | 0, _, _, _ => none
  | bound + 1, path, root, cs =>
    match skipGaps cs with
    | [] => some root
    | '[' :: cs => do
      let (front, key, isItem, rest) ← header? ('[' :: cs)
      let root ← if isItem then openItem? front key root else openTable? front key root
      lines? bound (front ++ [key]) root rest
    | cs =>
      match endLine? cs with
      | some rest => lines? bound path root rest
      | none => do
        let (front, key, value, rest) ← assignment? cs
        let root ← assign? path front key value root
        lines? bound path root rest

/-- The characters of a document without the mark that may come first. -/
def withoutMark : List Char → List Char
  | '\uFEFF' :: cs => cs
  | cs => cs

/-- The root table of a text, if the text is a document. -/
def parse? (text : String) : Option Members :=
  let cs := withoutMark text.toList
  lines? (cs.length + 1) [] [] cs

end Toml

end TestbedReport
