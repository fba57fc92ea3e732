/-!
# Blank Characters

Server answers, settings and cells are judged "blank" by Unicode's
`White_Space` property, which is wider than the four ASCII blanks of a JSON
document and narrower than "looks empty": the no-break space is blank, the
zero-width space is not. The table below is that property, and both trimming
and the test for a blank text use it, so that they cannot disagree.

## Main definitions

* `isBlank`: The characters with the `White_Space` property.
* `trimBlank`: A text without the blank characters at its two ends.
* `allBlank`: Whether a text holds nothing but blank characters.

## Theorems

* `isBlank_of_isWhitespace`: Every blank of the standard library is blank here.
* `trimBlank_eq_nil_iff`: Trimming leaves nothing exactly of an all-blank text.
-/

namespace TestbedReport

namespace Text

/-- The code points with the `White_Space` property, as closed ranges in
    ascending order. -/
def blankRanges : List (Nat × Nat) :=
  [(0x09, 0x0D), (0x20, 0x20), (0x85, 0x85), (0xA0, 0xA0), (0x1680, 0x1680), (0x2000, 0x200A),
   (0x2028, 0x2029), (0x202F, 0x202F), (0x205F, 0x205F), (0x3000, 0x3000)]

/-- A character is blank when its code point lies in one of the ranges. -/
def isBlank (c : Char) : Bool :=
  blankRanges.any fun range => range.1 ≤ c.toNat && c.toNat ≤ range.2

/-- Blank characters are dropped from both ends and kept inside. -/
def trimBlank (cs : List Char) : List Char :=
  ((cs.dropWhile isBlank).reverse.dropWhile isBlank).reverse

/-- A text is all blank when every character is, so the empty text is. -/
def allBlank (text : String) : Bool :=
  text.toList.all isBlank

/-- The blanks the standard library knows are the ASCII ones, and each of them
    is in the table. -/
theorem isBlank_of_isWhitespace {c : Char} (h : c.isWhitespace) : isBlank c := by
  simp only [Char.isWhitespace, Bool.or_eq_true, decide_eq_true_eq] at h
  rcases h with ((h | h) | h) | h <;> subst h <;> decide

/-- Nothing is left after dropping blanks exactly when there were only blanks. -/
theorem dropWhile_isBlank_eq_nil_iff (cs : List Char) :
    cs.dropWhile isBlank = [] ↔ cs.all isBlank := by
  induction cs with
  | nil => simp
  | cons c rest ih => by_cases h : isBlank c <;> simp [h, ih]

theorem trimBlank_eq_nil_iff (cs : List Char) : trimBlank cs = [] ↔ cs.all isBlank := by
  rw [trimBlank, List.reverse_eq_nil_iff, dropWhile_isBlank_eq_nil_iff, List.all_reverse]
  constructor
  · intro h
    have hnil : cs.dropWhile isBlank = [] := by
      cases hd : cs.dropWhile isBlank with
      | nil => rfl
      | cons c rest =>
        -- The first character that survives a drop is not blank, against `h`.
        have hc : isBlank c = false := by
          have := List.head?_dropWhile_not isBlank cs
          simpa [hd] using this
        rw [hd] at h
        simp [hc] at h
    exact (dropWhile_isBlank_eq_nil_iff cs).1 hnil
  · intro h
    rw [(dropWhile_isBlank_eq_nil_iff cs).2 h]
    rfl

end Text

end TestbedReport
