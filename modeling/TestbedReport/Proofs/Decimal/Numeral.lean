import TestbedReport.Decimal.Numeral

/-!
# Which Texts Are Numbers

A text is read as a number part by part, and each part is split off by what it may
consist of. The grammar says the same the other way round: a numeral is a sign, a
mantissa and an exponent behind each other. The two meet because no part can begin
with what the part before it may still hold. Digits do not begin with a sign, and an
exponent begins with its mark and not with a digit or a point.

Beside the numerals three words are numbers, in any letter case and with a sign. They
are kept apart here, because whoever counts with a text expects digits.

## Main definitions

* `SignPart`, `MantissaPart`, `ExponentPart`: The parts of a numeral.
* `IsNumeral`: A decimal numeral.
* `IsWord`: A word for infinity or for what is not a number.

## Theorems

* `spanSign_iff`: A property of what is behind an optional sign.
* `isSome_readExponent?_iff`, `Numeral.isSome_read?_iff`: What the reader of a part
  accepts.
* `isSome_toFloat?_iff`: The texts that are numbers.
* `toFloat?_of_isWord`: The words are no finite numbers.
-/

namespace TestbedReport

namespace Decimal

/-- Digits and nothing else. -/
def AllDigits (cs : List Char) : Prop :=
  ∀ c ∈ cs, c.isDigit = true

/-- A sign, which may be absent. -/
inductive SignPart : List Char → Prop where
  | absent : SignPart []
  | plus : SignPart ['+']
  | minus : SignPart ['-']

/-- Digits with an optional point, and at least one digit. -/
inductive MantissaPart : List Char → Prop where
  | digits (whole : List Char) (hwhole : AllDigits whole) (hsome : whole ≠ []) :
      MantissaPart whole
  | point (whole fraction : List Char) (hwhole : AllDigits whole) (hfraction : AllDigits fraction)
      (hsome : whole ≠ [] ∨ fraction ≠ []) : MantissaPart (whole ++ '.' :: fraction)

/-- A mark with an optional sign and at least one digit, all of which may be
    absent. -/
inductive ExponentPart : List Char → Prop where
  | absent : ExponentPart []
  | present (mark : Char) (sign digits : List Char) (hmark : mark = 'e' ∨ mark = 'E')
      (hsign : SignPart sign) (hdigits : AllDigits digits) (hsome : digits ≠ []) :
      ExponentPart (mark :: (sign ++ digits))

/-- A decimal numeral without a sign. -/
def IsUnsigned (cs : List Char) : Prop :=
  ∃ mantissa exponent, MantissaPart mantissa ∧ ExponentPart exponent ∧ cs = mantissa ++ exponent

/-- A decimal numeral. -/
def IsNumeral (cs : List Char) : Prop :=
  ∃ sign unsigned, SignPart sign ∧ IsUnsigned unsigned ∧ cs = sign ++ unsigned

/-- The words that are numbers, in small letters. -/
def numberWords : List (List Char) :=
  ["inf".toList, "infinity".toList, "nan".toList]

/-- A word for infinity or for what is not a number, in any letter case. -/
def IsWord (cs : List Char) : Prop :=
  ∃ sign word, SignPart sign ∧ word.map Char.toLower ∈ numberWords ∧ cs = sign ++ word

section Splitting

/-- What is behind a sign that may be absent has a property if the text has such a
    part, provided that nothing with the property begins with a sign itself. -/
theorem spanSign_iff (p : List Char → Prop) (hp : ∀ rest, ¬p ('-' :: rest) ∧ ¬p ('+' :: rest))
    (cs : List Char) :
    p (spanSign cs).2 ↔ ∃ sign rest, SignPart sign ∧ p rest ∧ cs = sign ++ rest := by
  -- The sign is the first character, and a part that begins with another sign
  -- would contradict `hp`.
  unfold spanSign
  split
  · next rest =>
    refine ⟨fun h => ⟨['-'], rest, .minus, h, rfl⟩, ?_⟩
    rintro ⟨sign, _, hsign, h, hcs⟩
    cases hsign with
    | absent => exact absurd (hcs ▸ h) (hp rest).1
    | plus => exact nomatch hcs
    | minus => exact (List.cons.inj hcs).2 ▸ h
  · next rest =>
    refine ⟨fun h => ⟨['+'], rest, .plus, h, rfl⟩, ?_⟩
    rintro ⟨sign, _, hsign, h, hcs⟩
    cases hsign with
    | absent => exact absurd (hcs ▸ h) (hp rest).2
    | plus => exact (List.cons.inj hcs).2 ▸ h
    | minus => exact nomatch hcs
  · next hminus hplus =>
    refine ⟨fun h => ⟨[], cs, .absent, h, rfl⟩, ?_⟩
    rintro ⟨sign, rest, hsign, h, hcs⟩
    cases hsign with
    | absent => exact hcs ▸ h
    | plus => exact absurd hcs (hplus rest)
    | minus => exact absurd hcs (hminus rest)

/-- Digits are split off whole from what begins with none. -/
theorem spanDigits_append {digits rest : List Char} (hdigits : AllDigits digits)
    (hrest : ∀ c tail, rest = c :: tail → c.isDigit = false) :
    spanDigits (digits ++ rest) = (digits, rest) := by
  rw [spanDigits, List.takeWhile_append_of_pos hdigits, List.dropWhile_append_of_pos hdigits]
  cases rest with
  | nil => rw [List.takeWhile_nil, List.dropWhile_nil, List.append_nil]
  | cons c tail =>
      have hc : ¬c.isDigit = true := by rw [hrest c tail rfl]; decide
      rw [List.takeWhile_cons_of_neg hc, List.dropWhile_cons_of_neg hc, List.append_nil]

/-- What is split off are digits, and nothing is lost. -/
theorem exists_spanDigits (cs : List Char) :
    ∃ digits rest, spanDigits cs = (digits, rest) ∧ AllDigits digits ∧ cs = digits ++ rest :=
  ⟨_, _, rfl, List.all_eq_true.mp List.all_takeWhile, List.takeWhile_append_dropWhile.symm⟩

end Splitting

section Parts

/-- Digits alone are read as a number, if there is one. -/
theorem isSome_toNat?_iff (cs : List Char) :
    (toNat? cs).isSome = true ↔ AllDigits cs ∧ cs ≠ [] := by
  have htest : (!cs.isEmpty && cs.all Char.isDigit) = true ↔ AllDigits cs ∧ cs ≠ [] := by
    rw [Bool.and_eq_true, List.all_eq_true, Bool.not_eq_true', List.isEmpty_eq_false_iff]
    exact And.comm
  rw [← htest, toNat?]
  split <;> simp_all

/-- What is read as an exponent is one. -/
theorem isSome_readExponent?_iff (cs : List Char) :
    (readExponent? cs).isSome = true ↔ ExponentPart cs := by
  -- Digits do not begin with a sign.
  have hsigned := spanSign_iff (fun digits => AllDigits digits ∧ digits ≠ []) fun rest =>
    ⟨fun h => absurd (h.1 '-' List.mem_cons_self) (by decide),
      fun h => absurd (h.1 '+' List.mem_cons_self) (by decide)⟩
  cases cs with
  | nil => exact ⟨fun _ => .absent, fun _ => rfl⟩
  | cons mark rest =>
      by_cases hmark : mark = 'e' ∨ mark = 'E'
      · rw [readExponent?, if_pos hmark]
        dsimp only
        rw [Option.isSome_map, isSome_toNat?_iff, hsigned]
        constructor
        · rintro ⟨sign, digits, hsign, ⟨hdigits, hsome⟩, rfl⟩
          exact .present mark sign digits hmark hsign hdigits hsome
        · intro h
          cases h with
          | present _ sign digits _ hsign hdigits hsome =>
              exact ⟨sign, digits, hsign, ⟨hdigits, hsome⟩, rfl⟩
      · rw [readExponent?, if_neg hmark]
        constructor
        · exact fun h => nomatch h
        · intro h
          cases h with
          | present _ _ _ hmark' => exact absurd hmark' hmark

/-- An exponent begins with no digit and no point. -/
theorem ExponentPart.head {exponent : List Char} (h : ExponentPart exponent) (c : Char)
    (rest : List Char) (hcons : exponent = c :: rest) : c.isDigit = false ∧ c ≠ '.' := by
  cases h with
  | absent => exact nomatch hcons
  | present mark sign digits hmark =>
      obtain ⟨rfl, -⟩ := List.cons.inj hcons
      rcases hmark with rfl | rfl
      · decide
      · decide

/-- What is read as a numeral without a sign is one. -/
theorem Numeral.isSome_read?_iff (cs : List Char) :
    (Numeral.read? cs).isSome = true ↔ IsUnsigned cs := by
  constructor
  · intro h
    obtain ⟨whole, afterWhole, hspan, hwhole, hcs⟩ := exists_spanDigits cs
    rw [Numeral.read?, hspan] at h
    dsimp only at h
    split at h
    · next afterPoint =>
      -- A point is behind the whole digits.
      obtain ⟨fraction, rest, hfraction, hdigits, hafter⟩ := exists_spanDigits afterPoint
      rw [hfraction] at h
      dsimp only at h
      split at h
      · exact nomatch h
      · next hsome =>
        rw [Option.isSome_map, isSome_readExponent?_iff] at h
        rw [Bool.and_eq_true, List.isEmpty_iff, List.isEmpty_iff,
          Decidable.not_and_iff_not_or_not] at hsome
        refine ⟨_, rest, .point whole fraction hwhole hdigits hsome, h, ?_⟩
        rw [hcs, hafter, List.append_assoc, List.cons_append]
    · split at h
      · exact nomatch h
      · next hsome =>
        rw [Option.isSome_map, isSome_readExponent?_iff] at h
        rw [Bool.and_eq_true, List.isEmpty_iff, List.isEmpty_iff,
          Decidable.not_and_iff_not_or_not] at hsome
        have hwhole' : whole ≠ [] := hsome.resolve_right fun hnil => hnil rfl
        exact ⟨whole, afterWhole, .digits whole hwhole hwhole', h, hcs⟩
  · rintro ⟨mantissa, exponent, hmantissa, hexponent, rfl⟩
    have hread := (isSome_readExponent?_iff exponent).mpr hexponent
    have hhead := hexponent.head
    cases hmantissa with
    | digits _ hwhole hsome =>
        rw [Numeral.read?, spanDigits_append hwhole fun c tail hc => (hhead c tail hc).1]
        dsimp only
        split
        · next rest => exact absurd rfl (hhead '.' rest rfl).2
        · rw [if_neg (by simp [hsome]), Option.isSome_map]
          exact hread
    | point whole fraction hwhole hfraction hsome =>
        have hpoint : ∀ c tail, '.' :: (fraction ++ exponent) = c :: tail → c.isDigit = false := by
          intro c tail hc
          obtain ⟨rfl, -⟩ := List.cons.inj hc
          decide
        have hfraction' := spanDigits_append hfraction fun c tail hc => (hhead c tail hc).1
        have hsome' : ¬(whole.isEmpty && fraction.isEmpty) = true := by
          rw [Bool.and_eq_true, List.isEmpty_iff, List.isEmpty_iff,
            Decidable.not_and_iff_not_or_not]
          exact hsome
        rw [Numeral.read?, List.append_assoc, List.cons_append, spanDigits_append hwhole hpoint]
        simp only [hfraction']
        rw [if_neg hsome', Option.isSome_map]
        exact hread

end Parts

section Numbers

/-- The numbers that the words stand for, with their signs. -/
def wordValues : List Float :=
  [1.0 / 0.0, -(1.0 / 0.0), 0.0 / 0.0, -(0.0 / 0.0)]

/-- A text without a sign is a number if it is a word or a numeral. -/
theorem isSome_unsignedToFloat?_iff (cs : List Char) :
    (unsignedToFloat? cs).isSome = true ↔ cs.map Char.toLower ∈ numberWords ∨ IsUnsigned cs := by
  rw [← Numeral.isSome_read?_iff, unsignedToFloat?]
  simp only [numberWords, List.mem_cons, List.not_mem_nil, or_false]
  split
  · next hinfinite => exact ⟨fun _ => .inl (hinfinite.imp_right .inl), fun _ => rfl⟩
  · next hinfinite =>
    rw [not_or] at hinfinite
    split
    · next hnan => exact ⟨fun _ => .inl (.inr (.inr hnan)), fun _ => rfl⟩
    · next hnan =>
      rw [Option.isSome_map]
      -- None of the three words is left, so it is a numeral.
      refine ⟨.inr, fun h => h.resolve_left ?_⟩
      rintro (hword | hword | hword)
      · exact hinfinite.1 hword
      · exact hinfinite.2 hword
      · exact hnan hword

/-- The words begin with letters. -/
theorem head?_numberWords :
    ∀ word ∈ numberWords, word.head? ≠ some '-' ∧ word.head? ≠ some '+' := by
  decide

/-- Neither a word nor a numeral without a sign begins with one. -/
theorem unsigned_head (rest : List Char) :
    ¬('-' :: rest).map Char.toLower ∈ numberWords ∧ ¬IsUnsigned ('-' :: rest) ∧
      ¬('+' :: rest).map Char.toLower ∈ numberWords ∧ ¬IsUnsigned ('+' :: rest) := by
  simp only [← Numeral.isSome_read?_iff]
  refine ⟨?_, ?_, ?_, ?_⟩
  · exact fun hmem => (head?_numberWords _ hmem).1 rfl
  · simp [Numeral.read?, spanDigits]
  · exact fun hmem => (head?_numberWords _ hmem).2 rfl
  · simp [Numeral.read?, spanDigits]

/-- A word is what is behind its sign. -/
theorem isWord_iff (cs : List Char) :
    (spanSign cs).2.map Char.toLower ∈ numberWords ↔ IsWord cs :=
  spanSign_iff (fun word => word.map Char.toLower ∈ numberWords) (fun rest =>
    ⟨(unsigned_head rest).1, (unsigned_head rest).2.2.1⟩) cs

/-- A numeral is what is behind its sign. -/
theorem isNumeral_iff (cs : List Char) : IsUnsigned (spanSign cs).2 ↔ IsNumeral cs :=
  spanSign_iff IsUnsigned (fun rest => ⟨(unsigned_head rest).2.1, (unsigned_head rest).2.2.2⟩) cs

instance (cs : List Char) : Decidable (IsWord cs) :=
  decidable_of_iff _ (isWord_iff cs)

instance (cs : List Char) : Decidable (IsNumeral cs) :=
  decidable_of_iff _ ((Numeral.isSome_read?_iff _).trans (isNumeral_iff cs))

/-- **The texts that are numbers** are the numerals and the words. -/
theorem isSome_toFloat?_iff (cs : List Char) :
    (toFloat? cs).isSome = true ↔ IsNumeral cs ∨ IsWord cs := by
  rw [toFloat?]
  dsimp only
  rw [Option.isSome_map, isSome_unsignedToFloat?_iff, isWord_iff, isNumeral_iff]
  exact Or.comm

/-- A word stands for one of its numbers. -/
theorem toFloat?_of_isWord {cs : List Char} (h : IsWord cs) :
    ∃ x ∈ wordValues, toFloat? cs = some x := by
  have hword := (isWord_iff cs).mpr h
  rw [toFloat?]
  dsimp only
  rw [unsignedToFloat?]
  simp only [numberWords, List.mem_cons, List.not_mem_nil, or_false, ← or_assoc] at hword
  -- Two words are infinite, and the third is no number.
  by_cases hinfinite : (spanSign cs).2.map Char.toLower = "inf".toList ∨
      (spanSign cs).2.map Char.toLower = "infinity".toList
  · rw [if_pos hinfinite]
    cases (spanSign cs).1 with
    | true => exact ⟨_, by simp [wordValues], rfl⟩
    | false => exact ⟨_, by simp [wordValues], rfl⟩
  · rw [if_neg hinfinite, if_pos (hword.resolve_left hinfinite)]
    cases (spanSign cs).1 with
    | true => exact ⟨_, by simp [wordValues], rfl⟩
    | false => exact ⟨_, by simp [wordValues], rfl⟩

end Numbers

end Decimal

end TestbedReport
