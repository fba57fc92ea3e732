import TestbedReport.Text.Utf8

/-!
# Texts in UTF-8

A text is read back from its bytes, character by character. The bytes of one
character bring the reader from between two characters to between two characters
again, whatever bytes follow, so a text is read as its characters are.

A character is written in one to four bytes. The first byte says how many follow,
and it narrows the bounds of the second one to what no shorter form and no
surrogate needs; that the written bytes keep within these bounds is where the
range of a character enters.

## Theorems

* `Utf8.unitsFrom_continued`: A byte that continues a sequence.
* `Utf8.unitsFrom_utf8EncodeChar`: The bytes of a character are read as it.
* `Utf8.decodeLossy_flatMap`, `Utf8.decode?_flatMap`: The bytes of a text are read as it.
* `Utf8.decode?_concat`: A byte of ASCII is never part of what is before it.
-/

namespace TestbedReport

namespace Utf8

theorem toNat_ofNat_of_lt {b : Nat} (hb : b < 256) : (UInt8.ofNat b).toNat = b := by
  rw [UInt8.toNat_ofNat']
  exact Nat.mod_eq_of_lt hb

/-- A byte within the bounds continues a sequence that misses more than one. -/
theorem unitsFrom_continued (missing value low high bits : Nat) (rest : List UInt8)
    (hlow : low ≤ bits + 128) (hhigh : bits + 128 ≤ high) (hbits : bits < 64) :
    unitsFrom (some ⟨missing + 2, value, low, high⟩) (UInt8.ofNat (bits + 128) :: rest) =
      unitsFrom (some ⟨missing + 1, value * 64 + bits, 0x80, 0xBF⟩) rest := by
  have hmore : ¬missing + 2 ≤ 1 := by omega
  rw [unitsFrom, toNat_ofNat_of_lt (by omega)]
  simp only [if_pos (And.intro hlow hhigh), if_neg hmore, Nat.add_sub_cancel]
  rfl

/-- The last byte completes it. -/
theorem unitsFrom_completed (value bits : Nat) (rest : List UInt8) (hbits : bits < 64) :
    unitsFrom (some ⟨1, value, 0x80, 0xBF⟩) (UInt8.ofNat (bits + 128) :: rest) =
      some (Char.ofNat (value * 64 + bits)) :: unitsFrom none rest := by
  have hlow : 0x80 ≤ bits + 128 := by omega
  have hhigh : bits + 128 ≤ 0xBF := by omega
  rw [unitsFrom, toNat_ofNat_of_lt (by omega)]
  simp only [if_pos (And.intro hlow hhigh), if_pos (Nat.le_refl 1), Nat.add_sub_cancel]

/-- A first byte of two is followed by what it announces. -/
theorem unitsFrom_two (bits : Nat) (rest : List UInt8) (hlow : 2 ≤ bits) (hhigh : bits < 32) :
    unitsFrom none (UInt8.ofNat (bits + 192) :: rest) =
      unitsFrom (some ⟨1, bits, 0x80, 0xBF⟩) rest := by
  have hopen : opening (UInt8.ofNat (bits + 192)) = .partly ⟨1, bits, 0x80, 0xBF⟩ := by
    rw [opening, toNat_ofNat_of_lt (by omega)]
    simp only [show ¬bits + 192 < 0x80 by omega, show ¬bits + 192 < 0xC2 by omega,
      show bits + 192 < 0xE0 by omega, if_true, if_false, Nat.add_sub_cancel]
  rw [unitsFrom, hopen]

/-- So is a first byte of three. -/
theorem unitsFrom_three (bits : Nat) (rest : List UInt8) (hhigh : bits < 16) :
    unitsFrom none (UInt8.ofNat (bits + 224) :: rest) =
      unitsFrom (some ⟨2, bits, if bits = 0 then 0xA0 else 0x80, if bits = 13 then 0x9F else 0xBF⟩)
        rest := by
  have hopen : opening (UInt8.ofNat (bits + 224)) =
      .partly ⟨2, bits, if bits = 0 then 0xA0 else 0x80, if bits = 13 then 0x9F else 0xBF⟩ := by
    -- Two first bytes narrow the range of the second one.
    have hfirst : (bits + 224 = 0xE0) = (bits = 0) := propext (by omega)
    have hlast : (bits + 224 = 0xED) = (bits = 13) := propext (by omega)
    rw [opening, toNat_ofNat_of_lt (by omega)]
    simp only [show ¬bits + 224 < 0x80 by omega, show ¬bits + 224 < 0xC2 by omega,
      show ¬bits + 224 < 0xE0 by omega, show bits + 224 < 0xF0 by omega, if_true, if_false,
      Nat.add_sub_cancel, hfirst, hlast]
  rw [unitsFrom, hopen]

/-- So is a first byte of four. -/
theorem unitsFrom_four (bits : Nat) (rest : List UInt8) (hhigh : bits < 5) :
    unitsFrom none (UInt8.ofNat (bits + 240) :: rest) =
      unitsFrom (some ⟨3, bits, if bits = 0 then 0x90 else 0x80, if bits = 4 then 0x8F else 0xBF⟩)
        rest := by
  have hopen : opening (UInt8.ofNat (bits + 240)) =
      .partly ⟨3, bits, if bits = 0 then 0x90 else 0x80, if bits = 4 then 0x8F else 0xBF⟩ := by
    have hfirst : (bits + 240 = 0xF0) = (bits = 0) := propext (by omega)
    have hlast : (bits + 240 = 0xF4) = (bits = 4) := propext (by omega)
    rw [opening, toNat_ofNat_of_lt (by omega)]
    simp only [show ¬bits + 240 < 0x80 by omega, show ¬bits + 240 < 0xC2 by omega,
      show ¬bits + 240 < 0xE0 by omega, show ¬bits + 240 < 0xF0 by omega,
      show bits + 240 < 0xF5 by omega, if_true, if_false, Nat.add_sub_cancel, hfirst, hlast]
  rw [unitsFrom, hopen]

/-- The bytes of a character are read as the character, whatever follows. -/
theorem unitsFrom_utf8EncodeChar (c : Char) (rest : List UInt8) :
    unitsFrom none (String.utf8EncodeChar c ++ rest) = some c :: unitsFrom none rest := by
  have hback := Char.ofNat_toNat c
  have hvalid : c.toNat < 0xD800 ∨ 0xDFFF < c.toNat ∧ c.toNat < 0x110000 := c.valid
  have hcode : c.val.toNat = c.toNat := rfl
  rw [String.utf8EncodeChar, hcode]
  generalize c.toNat = v at hback hvalid
  by_cases hone : v ≤ 127
  · have hopen : opening (UInt8.ofNat v) = .whole c := by
      rw [opening, toNat_ofNat_of_lt (by omega)]
      simp only [show v < 0x80 by omega, if_true, hback]
    simp only [hone, if_true, List.cons_append, List.nil_append, unitsFrom, hopen]
  by_cases htwo : v ≤ 2047
  · have hsum : v / 64 % 32 * 64 + v % 64 = v := by omega
    simp only [hone, htwo, if_true, if_false, List.cons_append, List.nil_append]
    rw [unitsFrom_two _ _ (by omega) (by omega), unitsFrom_completed _ _ _ (by omega), hsum, hback]
  by_cases hthree : v ≤ 65535
  · have hsum : (v / 4096 % 16 * 64 + v / 64 % 64) * 64 + v % 64 = v := by omega
    simp only [hone, htwo, hthree, if_true, if_false, List.cons_append, List.nil_append]
    -- The bounds keep out shorter forms below and surrogates above.
    rw [unitsFrom_three _ _ (by omega),
      unitsFrom_continued _ _ _ _ _ _ (by split <;> omega) (by split <;> omega) (by omega),
      unitsFrom_completed _ _ _ (by omega), hsum, hback]
  · have hsum : ((v / 262144 % 8 * 64 + v / 4096 % 64) * 64 + v / 64 % 64) * 64 + v % 64 = v := by
      omega
    simp only [hone, htwo, hthree, if_false, List.cons_append, List.nil_append]
    rw [unitsFrom_four _ _ (by omega),
      unitsFrom_continued _ _ _ _ _ _ (by split <;> omega) (by split <;> omega) (by omega),
      unitsFrom_continued _ _ _ _ _ _ (by omega) (by omega) (by omega),
      unitsFrom_completed _ _ _ (by omega), hsum, hback]

/-- The bytes of a text are well-formed throughout. -/
theorem units_flatMap (cs : List Char) :
    units (cs.flatMap String.utf8EncodeChar) = cs.map some := by
  rw [units]
  induction cs with
  | nil => rfl
  | cons c rest ih => rw [List.flatMap_cons, unitsFrom_utf8EncodeChar, ih, List.map_cons]

/-- The bytes of a text are read as the text. -/
theorem decodeLossy_flatMap (cs : List Char) :
    decodeLossy (cs.flatMap String.utf8EncodeChar) = String.ofList cs := by
  rw [decodeLossy, units_flatMap, List.map_map]
  have hsame : cs.map ((fun unit : Option Char => unit.getD '\uFFFD') ∘ some) = cs := List.map_id cs
  rw [hsame]

/-- They are read as the text also where nothing ill-formed is tolerated. -/
theorem decode?_flatMap (cs : List Char) :
    decode? (cs.flatMap String.utf8EncodeChar) = some (String.ofList cs) := by
  have hwhole : (cs.map some).mapM id = some cs := by
    induction cs with
    | nil => rfl
    | cons c rest ih => rw [List.map_cons, List.mapM_cons, ih]; rfl
  rw [decode?, units_flatMap, hwhole, Option.map_some]

/-- Every byte yields what it yields and leaves the reader in some state, whatever
    follows. No state waits for a byte of ASCII. -/
theorem unitsFrom_cons (pending : Option Pending) (byte : UInt8) :
    ∃ front next, (∀ p, next = some p → 0x80 ≤ p.low) ∧
      ∀ rest, unitsFrom pending (byte :: rest) = front ++ unitsFrom next rest := by
  -- Whatever a byte opens or goes on with, what may come next is above ASCII.
  have hopened : ∀ p, opening byte = .partly p → ∀ q, some p = some q → 0x80 ≤ q.low := by
    rintro p h q ⟨⟩
    rw [opening] at h
    grind
  have hnone : ∀ q : Pending, none = some q → 0x80 ≤ q.low := fun q h => nomatch h
  cases pending with
  | none =>
      cases h : opening byte with
      | whole c => exact ⟨[some c], none, hnone, fun rest => by rw [unitsFrom, h]; rfl⟩
      | partly p => exact ⟨[], some p, hopened p h, fun rest => by rw [unitsFrom, h]; rfl⟩
      | illFormed => exact ⟨[none], none, hnone, fun rest => by rw [unitsFrom, h]; rfl⟩
  | some p =>
      by_cases hin : p.low ≤ byte.toNat ∧ byte.toNat ≤ p.high
      · -- The byte belongs to the open sequence, which may be complete with it.
        by_cases hlast : p.missing ≤ 1
        · exact ⟨[some (Char.ofNat (p.value * 64 + (byte.toNat - 0x80)))], none, hnone,
            fun rest => by
              rw [unitsFrom]
              simp only [if_pos hin, if_pos hlast, List.cons_append, List.nil_append]⟩
        · refine ⟨[], some ⟨p.missing - 1, p.value * 64 + (byte.toNat - 0x80), 0x80, 0xBF⟩, ?_,
            fun rest => ?_⟩
          · rintro q ⟨⟩
            exact Nat.le_refl _
          · rw [unitsFrom]
            simp only [if_pos hin, if_neg hlast, List.nil_append]
      · -- The sequence breaks off and the byte is looked at again.
        cases h : opening byte with
        | whole c =>
            exact ⟨[none, some c], none, hnone, fun rest => by
              rw [unitsFrom]
              simp only [if_neg hin, h, List.cons_append, List.nil_append]⟩
        | partly q =>
            exact ⟨[none], some q, hopened q h, fun rest => by
              rw [unitsFrom]
              simp only [if_neg hin, h, List.cons_append, List.nil_append]⟩
        | illFormed =>
            exact ⟨[none, none], none, hnone, fun rest => by
              rw [unitsFrom]
              simp only [if_neg hin, h, List.cons_append, List.nil_append]⟩

/-- A byte of ASCII at the end is read as its character. -/
theorem unitsFrom_concat (bytes : List UInt8) (last : UInt8) (hlast : last.toNat < 0x80)
    (pending : Option Pending) (hpending : ∀ p, pending = some p → 0x80 ≤ p.low) :
    ∃ before, unitsFrom pending (bytes ++ [last]) = before ++ [some (Char.ofNat last.toNat)] := by
  induction bytes generalizing pending with
  | nil =>
      have hopening : opening last = .whole (Char.ofNat last.toNat) := by
        rw [opening]
        exact if_pos hlast
      cases pending with
      | none => exact ⟨[], by simp only [List.nil_append, unitsFrom, hopening]⟩
      | some p =>
          -- A byte of ASCII goes on with no sequence, so the open one breaks off.
          have hout : ¬(p.low ≤ last.toNat ∧ last.toNat ≤ p.high) := by
            have hlow := hpending p rfl
            omega
          exact ⟨[none], by
            simp only [List.nil_append, unitsFrom, if_neg hout, hopening, List.cons_append]⟩
  | cons byte rest ih =>
      rcases unitsFrom_cons pending byte with ⟨front, next, hnext, hcons⟩
      rcases ih next hnext with ⟨before, hbefore⟩
      exact ⟨front ++ before, by rw [List.cons_append, hcons, hbefore, List.append_assoc]⟩

/-- If bytes that end in one of ASCII are a text, the text ends in its character. -/
theorem decode?_concat {bytes : List UInt8} {last : UInt8} {text : String}
    (hlast : last.toNat < 0x80) (h : decode? (bytes ++ [last]) = some text) :
    ∃ before, text.toList = before ++ [Char.ofNat last.toNat] := by
  have hwhole : ∀ (units : List (Option Char)) (cs : List Char),
      units.mapM id = some cs → units = cs.map some := by
    intro units cs hcs
    induction units generalizing cs with
    | nil =>
        rw [List.mapM_nil] at hcs
        rw [← Option.some.inj hcs]
        rfl
    | cons unit rest ih =>
        rw [List.mapM_cons] at hcs
        rcases Option.bind_eq_some_iff.mp hcs with ⟨c, hc, hrest⟩
        rcases Option.bind_eq_some_iff.mp hrest with ⟨tail, htail, hcs⟩
        rw [← Option.some.inj hcs, List.map_cons, ← ih tail htail]
        exact congrArg (· :: rest) hc
  rcases unitsFrom_concat bytes last hlast none (fun p hp => nomatch hp) with ⟨before, hbefore⟩
  rw [decode?, Option.map_eq_some_iff] at h
  rcases h with ⟨cs, hcs, htext⟩
  -- No unit is missing, so the last of them is the last character.
  have hunits := hwhole _ _ hcs
  rw [units, hbefore] at hunits
  rcases List.map_eq_append_iff.mp hunits.symm with ⟨front, tail, hcs, _, htail⟩
  rcases List.map_eq_singleton_iff.mp htail with ⟨c, hlast, hc⟩
  rw [← Option.some.inj hc]
  exact ⟨front, by rw [← htext, String.toList_ofList, hcs, hlast]⟩

end Utf8

end TestbedReport
