import Mathlib.Data.List.Infix
import TestbedReport.Proofs.Url.Path

/-!
# What Is in Percent Form Already

A part of a URL is written in ASCII, without the characters that have a meaning around
it. Such a text is encoded already: to read it once more changes nothing. What has
been encoded is such a text, as neither the percent sign nor its digits have a meaning
anywhere.

Dots are the one place where a text and its percent form could be two things, because
`%2e` is a dot in a path. No character is turned into that form, as a dot stands for
itself.

## Main definitions

* `Percent.Encoded`: A text in ASCII without what has to be encoded.

## Theorems

* `Percent.encode_eq_self`: What is encoded stays as it is.
* `Percent.encoded_encode`: What has been encoded is encoded.
* `Percent.decode_ascii`: Without a percent sign bytes mean themselves.
* `Url.mem_dotForms_of_encode`: Dots are dots before they are encoded.
-/

namespace TestbedReport

namespace Percent

/-- A text in ASCII without what has to be encoded. -/
def Encoded (mustEncode : Char → Bool) (cs : List Char) : Prop :=
  ∀ c ∈ cs, c.toNat < 0x80 ∧ mustEncode c = false

variable {mustEncode : Char → Bool}

/-- What is encoded stays as it is. -/
theorem encode_eq_self {cs : List Char} (h : Encoded mustEncode cs) :
    encode mustEncode cs = cs := by
  have hkept : ∀ c ∈ cs, encodeChar mustEncode c = [c] := by
    intro c hc
    rcases h c hc with ⟨hascii, hplain⟩
    rw [encodeChar, decide_eq_false (by omega), hplain]
    rfl
  rw [encode, List.flatMap_congr hkept, List.flatMap_singleton']

/-- A character is kept, or it is in percent form. -/
theorem encodeChar_cases (mustEncode : Char → Bool) (c : Char) :
    (c.toNat < 0x80 ∧ mustEncode c = false ∧ encodeChar mustEncode c = [c]) ∨
      ((0x80 ≤ c.toNat ∨ mustEncode c = true) ∧
        encodeChar mustEncode c = (String.utf8EncodeChar c).flatMap encodeByte) := by
  rw [encodeChar]
  by_cases hencoded : (decide (0x80 ≤ c.toNat) || mustEncode c) = true
  · rw [if_pos hencoded]
    simp only [Bool.or_eq_true, decide_eq_true_eq] at hencoded
    exact .inr ⟨hencoded, rfl⟩
  · rw [if_neg hencoded]
    simp only [Bool.or_eq_true, decide_eq_true_eq, not_or, Bool.not_eq_true, Nat.not_le] at hencoded
    exact .inl ⟨hencoded.1, hencoded.2, rfl⟩

/-- An encoded text has characters of the text, percent signs and digits. -/
theorem mem_encode {cs : List Char} {c : Char} (hc : c ∈ encode mustEncode cs) :
    (c ∈ cs ∧ c.toNat < 0x80 ∧ mustEncode c = false) ∨ c = '%' ∨ ∃ n < 16, c = upperHex n := by
  rcases List.mem_flatMap.mp hc with ⟨d, hd, hin⟩
  rcases encodeChar_cases mustEncode d with ⟨hascii, hplain, hkept⟩ | ⟨_, hform⟩
  · rw [hkept, List.mem_singleton] at hin
    rw [hin]
    exact .inl ⟨hd, hascii, hplain⟩
  · rw [hform] at hin
    rcases List.mem_flatMap.mp hin with ⟨byte, _, hbyte⟩
    exact .inr (mem_encodeByte hbyte)

/-- What has been encoded is encoded, where percent forms are let alone. -/
theorem encoded_encode (hpercent : mustEncode '%' = false)
    (hdigits : ∀ n < 16, mustEncode (upperHex n) = false) (cs : List Char) :
    Encoded mustEncode (encode mustEncode cs) := by
  intro c hc
  rcases mem_encode hc with ⟨_, hascii, hplain⟩ | rfl | ⟨n, hn, rfl⟩
  · exact ⟨hascii, hplain⟩
  · exact ⟨by decide, hpercent⟩
  · have hall : ∀ n < 16, (upperHex n).toNat < 0x80 := by decide
    exact ⟨hall n hn, hdigits n hn⟩

/-- A character has one byte at least. -/
theorem exists_utf8EncodeChar (c : Char) :
    ∃ byte rest, String.utf8EncodeChar c = byte :: rest :=
  List.exists_cons_of_ne_nil String.utf8EncodeChar_ne_nil

/-- A character is written in one character at least. -/
theorem encodeChar_ne_nil (c : Char) : encodeChar mustEncode c ≠ [] := by
  rcases encodeChar_cases mustEncode c with ⟨_, _, hkept⟩ | ⟨_, hform⟩
  · rw [hkept]
    exact List.cons_ne_nil _ _
  · rcases exists_utf8EncodeChar c with ⟨byte, rest, hbytes⟩
    rw [hform, hbytes, List.flatMap_cons]
    exact List.cons_ne_nil _ _

theorem encode_ne_nil {cs : List Char} (h : cs ≠ []) : encode mustEncode cs ≠ [] := by
  rcases List.exists_cons_of_ne_nil h with ⟨c, rest, hcons⟩
  rw [hcons, encode, List.flatMap_cons]
  exact List.append_ne_nil_of_left_ne_nil (encodeChar_ne_nil c) _

/-- A character of ASCII is one byte. -/
theorem utf8EncodeChar_ascii {c : Char} (h : c.toNat < 0x80) :
    String.utf8EncodeChar c = [UInt8.ofNat c.toNat] :=
  forall_ascii (fun c => String.utf8EncodeChar c = [UInt8.ofNat c.toNat]) (by decide) h

/-- Without a percent sign bytes mean themselves. -/
theorem decode_ascii {cs : List Char} (h : ∀ c ∈ cs, c.toNat < 0x80 ∧ c ≠ '%') :
    decode (cs.flatMap String.utf8EncodeChar) = cs.flatMap String.utf8EncodeChar := by
  rw [decode]
  induction cs with
  | nil => rfl
  | cons c rest ih =>
      rw [List.forall_mem_cons] at h
      -- One byte for each character, and none of them is the percent sign.
      have hbyte : UInt8.ofNat c.toNat ≠ 0x25 :=
        forall_ascii (fun c => c ≠ '%' → UInt8.ofNat c.toNat ≠ 0x25) (by decide) h.1.1 h.1.2
      rw [List.flatMap_cons, utf8EncodeChar_ascii h.1.1, List.cons_append, List.nil_append,
        decodeFrom_plain _ _ hbyte, ih h.2]

end Percent

namespace Url

/-- The first byte of a character is that of a dot only for a dot. -/
theorem eq_dot_of_utf8EncodeChar {c : Char} {rest : List UInt8}
    (h : String.utf8EncodeChar c = 0x2E :: rest) : c = '.' := by
  have hunits := Utf8.unitsFrom_utf8EncodeChar c []
  have hdot : Utf8.unitsFrom none (0x2E :: rest) = some '.' :: Utf8.unitsFrom none rest := rfl
  rw [h, List.append_nil, hdot] at hunits
  exact (Option.some.inj (List.cons.inj hunits).1).symm

/-- Dots are dots before they are encoded. -/
theorem mem_dotForms_of_encode {segment : List Char}
    (h : (Percent.encode Percent.inPath segment).map Char.toLower ∈ dotForms) :
    segment.map Char.toLower ∈ dotForms := by
  have hencoded : Percent.Encoded Percent.inPath segment := by
    -- A character in percent form would be a dot, which is never in that form.
    intro c hc
    rcases Percent.encodeChar_cases Percent.inPath c with ⟨hascii, hplain, _⟩ | ⟨hmust, hform⟩
    · exact ⟨hascii, hplain⟩
    · rcases Percent.exists_utf8EncodeChar c with ⟨byte, rest, hbytes⟩
      rcases List.append_of_mem hc with ⟨front, back, rfl⟩
      have hbyte := byte.toNat_lt
      have hforms : ∀ form ∈ dotForms, ∀ tail ∈ form.tails, tail.head? = some '%' →
          tail.take 3 = ['%', '2', 'e'] := by decide
      rw [Percent.encode, List.flatMap_append, List.flatMap_cons, hform, hbytes,
        List.flatMap_cons, List.map_append] at h
      have htail := hforms _ h _ ((List.mem_tails _ _).mpr (List.suffix_append _ _)) rfl
      have hdigits : ∀ n < 16, ((Percent.upperHex n).toLower = '2' → n = 2) ∧
          ((Percent.upperHex n).toLower = 'e' → n = 14) := by decide
      simp only [Percent.encodeByte, List.cons_append, List.nil_append, List.map_cons,
        List.take_succ_cons, List.take_zero, List.cons.injEq] at htail
      have hhigh := (hdigits _ (by omega)).1 htail.2.1
      have hlow := (hdigits _ (by omega)).2 htail.2.2.1
      have hdot : byte = 0x2E := UInt8.toNat_inj.mp (by
        have hcode : (0x2E : UInt8).toNat = 46 := rfl
        omega)
      rw [hdot] at hbytes
      rw [eq_dot_of_utf8EncodeChar hbytes] at hmust
      exact absurd hmust (by decide)
  rwa [Percent.encode_eq_self hencoded] at h

end Url

end TestbedReport
