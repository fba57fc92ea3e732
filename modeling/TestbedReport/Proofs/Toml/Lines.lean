import TestbedReport.Toml.Document

/-!
# Simple Lines of a Document

Most settings files have two kinds of lines: the name of a table in brackets, and
below it a name, an equals sign and a text between double quotes. This module says
what a document does with such lines, for any names that need no quotes and
whatever stands between the quotes.

What a text comes to is left open. So the lines are described up to the quote at
which the text begins, and what follows is up to the text.

## Theorems

* `Toml.keyPath?_bare`: A key without quotes.
* `Toml.header?_bare`: The header of a table.
* `Toml.assignment?_quoted`: A text under a key.
* `Toml.lines?_header`, `Toml.lines?_assignment`: What a document does with them.
-/

namespace TestbedReport

namespace Toml

variable {key : List Char} (hkey : key ≠ []) (hbare : ∀ c ∈ key, isBareKey c = true)
include hkey hbare

/-- The first character of a key without quotes. -/
theorem exists_bare_head : ∃ c rest, key = c :: rest ∧ isBareKey c = true := by
  cases key with
  | nil => exact absurd rfl hkey
  | cons c rest => exact ⟨c, rest, rfl, hbare c List.mem_cons_self⟩

/-- A character that no key without quotes can have is not its first. -/
theorem head_ne_of_bare {c : Char} (hc : isBareKey c = false) (rest : List Char) :
    ∀ tail, key ++ rest ≠ c :: tail := by
  rcases exists_bare_head hkey hbare with ⟨first, others, rfl, hfirst⟩
  intro tail heq
  rw [(List.cons.inj heq).1, hc] at hfirst
  exact absurd hfirst (by decide)

/-- There are no blanks in front of a key without quotes. -/
theorem skipGaps_bare (rest : List Char) : skipGaps (key ++ rest) = key ++ rest := by
  rcases exists_bare_head hkey hbare with ⟨c, others, rfl, hc⟩
  refine List.dropWhile_cons_of_neg fun hgap => ?_
  rw [isGap, Bool.or_eq_true, decide_eq_true_eq, decide_eq_true_eq] at hgap
  rcases hgap with rfl | rfl
  · exact absurd hc (by decide)
  · exact absurd hc (by decide)

/-- A key without quotes is no end of a line. -/
theorem endLine?_bare (rest : List Char) : endLine? (key ++ rest) = none := by
  have hne : ∀ {c : Char}, isBareKey c = false → ∀ tail, key ++ rest ≠ c :: tail :=
    fun hc => head_ne_of_bare hkey hbare hc rest
  have hnil : key ++ rest ≠ [] := fun h => hkey (List.append_eq_nil_iff.mp h).1
  -- No end of a line begins with a character of a key, and no comment either.
  have hbreak : newline? (key ++ rest) = none := by
    unfold newline?
    split
    · next tail heq => exact absurd heq (hne (by decide) tail)
    · next tail heq => exact absurd heq (hne (by decide) _)
    · rfl
  rw [endLine?, skipGaps_bare hkey hbare]
  split
  · next hrest =>
    split at hrest
    · next tail heq => exact absurd heq (hne (by decide) tail)
    · exact absurd hrest hnil
  · split
    · next tail heq => exact absurd heq (hne (by decide) tail)
    · exact hbreak

/-- A key without quotes ends at the first character that it cannot have. -/
theorem keyPath?_bare {c : Char} (hc : isBareKey c = false) (rest : List Char)
    (hdot : ∀ tail, skipGaps (c :: rest) ≠ '.' :: tail) :
    keyPath? (key ++ c :: rest) = some ([], String.ofList key, skipGaps (c :: rest)) := by
  have hend : ¬isBareKey c = true := by
    rw [hc]
    exact Bool.false_ne_true
  -- The part ends at `c`, and what follows is no dot, so there is no other part.
  have hpart : keyPart? (key ++ c :: rest) = some (String.ofList key, c :: rest) := by
    have htake : (key ++ c :: rest).takeWhile isBareKey = key := by
      rw [List.takeWhile_append_of_pos hbare, List.takeWhile_cons_of_neg hend, List.append_nil]
    have hdrop : (key ++ c :: rest).dropWhile isBareKey = c :: rest := by
      rw [List.dropWhile_append_of_pos hbare, List.dropWhile_cons_of_neg hend]
    have hempty : ¬key.isEmpty = true := fun h => hkey (List.isEmpty_iff.mp h)
    simp only [keyPart?, htake, hdrop, if_neg hempty]
  have hparts : keyParts? ((key ++ c :: rest).length + 1) (key ++ c :: rest) =
      some ([String.ofList key], skipGaps (c :: rest)) := by
    rw [keyParts?, skipGaps_bare hkey hbare, hpart]
    simp only [Option.bind_eq_bind, Option.bind_some]
    rfl
  rw [keyPath?, hparts]
  rfl

/-- The header of a table. -/
theorem header?_bare (rest : List Char) :
    header? ('[' :: (key ++ ']' :: '\n' :: rest)) =
      some ([], String.ofList key, false, rest) := by
  have hpath : keyPath? (key ++ ']' :: '\n' :: rest) =
      some ([], String.ofList key, ']' :: '\n' :: rest) :=
    keyPath?_bare hkey hbare (by decide) _ fun tail heq =>
      absurd (List.cons.inj heq).1 (by decide)
  unfold header?
  split
  · -- A second bracket would be the first character of the key.
    next tail heq =>
    exact absurd (List.cons.inj heq).2 (head_ne_of_bare hkey hbare (by decide) _ tail)
  · next tail hnot heq =>
    rw [← (List.cons.inj heq).2, hpath]
    rfl
  · next hnot => exact absurd rfl (hnot _)

omit hkey hbare in
/-- A value that begins with a quote is a text. -/
theorem value?_quoted (bound depth : Nat) (cs : List Char) :
    value? (bound + 1) depth ('"' :: cs) =
      (text? ('"' :: cs)).bind fun read => some (.text read.1, read.2) := by
  rw [value?]
  rfl

/-- A text under a key, from its first quote on. -/
theorem assignment?_quoted (cs : List Char) :
    assignment? (key ++ ' ' :: '=' :: ' ' :: '"' :: cs) =
      (text? ('"' :: cs)).bind fun read =>
        (endLine? read.2).map fun rest => ([], String.ofList key, .text read.1, rest) := by
  have hpath : keyPath? (key ++ ' ' :: '=' :: ' ' :: '"' :: cs) =
      some ([], String.ofList key, '=' :: ' ' :: '"' :: cs) :=
    keyPath?_bare hkey hbare (by decide) _ fun tail heq =>
      absurd (List.cons.inj heq).1 (by decide)
  have hgap : skipGaps (' ' :: '"' :: cs) = '"' :: cs := rfl
  have hequals : after? '=' ('=' :: ' ' :: '"' :: cs) = some (' ' :: '"' :: cs) := rfl
  rw [assignment?, hpath]
  simp only [Option.bind_eq_bind, Option.bind_some, hequals, hgap, value?_quoted]
  -- The rest of the line is what the two sides have in common.
  cases text? ('"' :: cs) with
  | none => rfl
  | some read =>
      simp only [Option.bind_some]
      cases endLine? read.2 with
      | none => rfl
      | some rest => rfl

/-- A header goes on with an empty table under its name, which must be free. -/
theorem lines?_header {root : Members} (hfree : root.lookup (String.ofList key) = none)
    (bound : Nat) (path : List String) (rest : List Char) :
    lines? (bound + 1) path root ('[' :: (key ++ ']' :: '\n' :: rest)) =
      lines? bound [String.ofList key]
        (Keyed.put (String.ofList key) (.table .header []) root) rest := by
  have hskip : skipGaps ('[' :: (key ++ ']' :: '\n' :: rest)) =
      '[' :: (key ++ ']' :: '\n' :: rest) := rfl
  have hopened : openTable? [] (String.ofList key) root =
      some (Keyed.put (String.ofList key) (.table .header []) root) := by
    simp only [openTable?, reach?, hfree, Option.map_some]
  rw [lines?, hskip]
  simp only [header?_bare hkey hbare, hopened, Option.bind_eq_bind, Option.bind_some,
    Bool.false_eq_true, if_false, List.nil_append]

/-- A text under a key goes on with the text in the table of the lines. -/
theorem lines?_assignment (bound : Nat) (path : List String) (root : Members) (cs : List Char) :
    lines? (bound + 1) path root (key ++ ' ' :: '=' :: ' ' :: '"' :: cs) =
      (text? ('"' :: cs)).bind fun read => (endLine? read.2).bind fun rest =>
        (assign? path [] (String.ofList key) (.text read.1) root).bind fun root =>
          lines? bound path root rest := by
  rw [lines?, skipGaps_bare hkey hbare]
  -- The line is neither empty nor a header, for it begins with the key.
  split
  · next hnil => exact absurd (List.append_eq_nil_iff.mp hnil).1 hkey
  · next tail heq => exact absurd heq (head_ne_of_bare hkey hbare (by decide) _ tail)
  · rw [endLine?_bare hkey hbare, assignment?_quoted hkey hbare]
    cases text? ('"' :: cs) with
    | none => rfl
    | some read =>
        simp only [Option.bind_some]
        cases endLine? read.2 with
        | none => rfl
        | some rest => rfl

end Toml

end TestbedReport
