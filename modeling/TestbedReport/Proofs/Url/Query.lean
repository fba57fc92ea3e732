import TestbedReport.Proofs.Text.Utf8
import TestbedReport.Url.Basic

/-!
# Query Pairs Are Read Back

Pairs that are added to a URL are its pairs from then on, whatever they say. A
name or a value can hold everything, the marks of a query and of a URL included,
and it is read back because no mark is left in it once it is written: what
separates pairs, and names from values, is always one of the writer's own.

Reading turns every plus sign into a space before it looks at percent forms. That
is in order because a plus sign that was meant is in percent form.

## Main definitions

* `Form.isWritten`: What can stand in a written name or value.
* `Form.bytesOf`: The bytes a reader makes of written characters.

## Theorems

* `Percent.decodeFrom_encodeByte`: A byte in percent form is meant.
* `Form.mem_extend`: What a query of pairs is made of.
* `Form.decodeFrom_writeChar`: A written character is read as its bytes.
* `Form.readText_writeText`: A written name or value is read back.
* `Form.readPairs_extend`: Pairs behind a query are read behind its own.
* `Url.pairs_addPairs`: The pairs of a URL with more pairs.
-/

namespace TestbedReport

namespace Percent

/-- A byte in percent form is meant, whatever follows. -/
theorem decodeFrom_encodeByte (byte : UInt8) (rest : List UInt8) :
    decodeFrom 0 ((encodeByte byte).flatMap String.utf8EncodeChar ++ rest) =
      byte :: decodeFrom 0 rest := by
  have hbyte := byte.toNat_lt
  -- A digit is one byte, and the sixteen of them can be tried out.
  have hdigit : ∀ n < 16, ∃ b, String.utf8EncodeChar (upperHex n) = [b] ∧ hexValue? b = some n := by
    intro n hn
    have hall : ∀ m < 16, String.utf8EncodeChar (upperHex m) =
        [(String.utf8EncodeChar (upperHex m)).headD 0] ∧
          hexValue? ((String.utf8EncodeChar (upperHex m)).headD 0) = some m := by decide
    exact ⟨_, hall n hn⟩
  rcases hdigit (byte.toNat / 16) (by omega) with ⟨high, hhigh, hhighValue⟩
  rcases hdigit (byte.toNat % 16) (by omega) with ⟨low, hlow, hlowValue⟩
  have hpercent : String.utf8EncodeChar '%' = [0x25] := by decide
  have hsum : byte.toNat / 16 * 16 + byte.toNat % 16 = byte.toNat := by omega
  simp only [encodeByte, List.flatMap_cons, List.flatMap_nil, hpercent, hhigh, hlow,
    List.cons_append, List.nil_append, decodeFrom, if_true, leadingByte?, hhighValue, hlowValue,
    hsum, UInt8.ofNat_toNat]

/-- Bytes in percent form are meant, whatever follows. -/
theorem decodeFrom_encodeBytes (bytes rest : List UInt8) :
    decodeFrom 0 ((bytes.flatMap encodeByte).flatMap String.utf8EncodeChar ++ rest) =
      bytes ++ decodeFrom 0 rest := by
  induction bytes with
  | nil => rfl
  | cons byte bytes ih =>
      rw [List.flatMap_cons, List.flatMap_append, List.append_assoc, decodeFrom_encodeByte, ih,
        List.cons_append]

/-- A byte other than the percent sign means itself. -/
theorem decodeFrom_plain (byte : UInt8) (rest : List UInt8) (h : byte ≠ 0x25) :
    decodeFrom 0 (byte :: rest) = byte :: decodeFrom 0 rest := by
  rw [decodeFrom, if_neg h]

/-- The characters of a byte in percent form. -/
theorem mem_encodeByte {byte : UInt8} {c : Char} (h : c ∈ encodeByte byte) :
    c = '%' ∨ ∃ n < 16, c = upperHex n := by
  have hbyte := byte.toNat_lt
  rw [encodeByte, List.mem_cons, List.mem_cons, List.mem_singleton] at h
  rcases h with hc | hc | hc
  · exact .inl hc
  · exact .inr ⟨byte.toNat / 16, by omega, hc⟩
  · exact .inr ⟨byte.toNat % 16, by omega, hc⟩

end Percent

namespace Form

/-- What can stand in a written name or value. -/
def isWritten (c : Char) : Bool :=
  isPlain c || c = '%' || c = '+'

/-- Letters and digits are characters of ASCII. -/
theorem toNat_lt_of_isAlphanum {c : Char} (h : c.isAlphanum = true) : c.toNat < 0x80 := by
  have hcode : c.toNat = c.val.toNat := rfl
  have hupper : 'Z'.val.toNat = 90 := rfl
  have hlower : 'z'.val.toNat = 122 := rfl
  have hdigit : '9'.val.toNat = 57 := rfl
  -- The classes are ranges of codes, and the last code of each is small.
  delta Char.isAlphanum Char.isAlpha Char.isUpper Char.isLower Char.isDigit at h
  simp only [Bool.or_eq_true, Bool.and_eq_true, decide_eq_true_eq, ge_iff_le,
    UInt32.le_iff_toNat_le] at h
  omega

/-- So is everything that stands for itself. -/
theorem toNat_lt_of_isPlain {c : Char} (h : isPlain c = true) : c.toNat < 0x80 := by
  rw [isPlain, Bool.or_eq_true, List.contains_iff_mem] at h
  rcases h with halnum | hmark
  · exact toNat_lt_of_isAlphanum halnum
  · have hall : ['*', '-', '.', '_'].all (·.toNat < 0x80) = true := rfl
    exact of_decide_eq_true (List.all_eq_true.mp hall c hmark)

/-- A character is written as a plus sign, as itself, or in percent form. -/
theorem writeChar_cases (c : Char) :
    (c = ' ' ∧ writeChar c = ['+']) ∨ (isPlain c = true ∧ writeChar c = [c]) ∨
      writeChar c = (String.utf8EncodeChar c).flatMap Percent.encodeByte := by
  by_cases hspace : c = ' '
  · exact .inl ⟨hspace, by rw [writeChar, if_pos hspace]⟩
  · rw [writeChar, if_neg hspace, Percent.encodeChar]
    cases hplain : isPlain c with
    | true =>
        have hascii := toNat_lt_of_isPlain hplain
        -- A plain character is in ASCII, so nothing asks for its percent form.
        have hkept : (decide (0x80 ≤ c.toNat) || !true) = false := by
          rw [decide_eq_false (by omega)]
          rfl
        exact .inr (.inl ⟨rfl, by rw [hkept]; rfl⟩)
    | false =>
        have hencoded : (decide (0x80 ≤ c.toNat) || !false) = true := Bool.or_true _
        exact .inr (.inr (by rw [hencoded]; rfl))

/-- Nothing else stands in a written name or value. -/
theorem isWritten_of_mem {text : String} {c : Char} (h : c ∈ writeText text) :
    isWritten c = true := by
  rcases List.mem_flatMap.mp h with ⟨d, _, hc⟩
  rcases writeChar_cases d with ⟨_, hwritten⟩ | ⟨hplain, hwritten⟩ | hwritten
  · rw [hwritten, List.mem_singleton] at hc
    rw [hc]
    decide
  · rw [hwritten, List.mem_singleton] at hc
    rw [hc, isWritten, hplain]
    rfl
  · rw [hwritten] at hc
    rcases List.mem_flatMap.mp hc with ⟨byte, _, hbyte⟩
    rcases Percent.mem_encodeByte hbyte with hpercent | ⟨n, hn, hdigit⟩
    · rw [hpercent]
      decide
    · have hall : ∀ m < 16, isWritten (Percent.upperHex m) = true := by decide
      rw [hdigit]
      exact hall n hn

/-- What a query of pairs is made of. -/
theorem mem_extend {query : List Char} {pairs : List (String × String)} {c : Char}
    (hc : c ∈ extend query pairs) :
    c ∈ query ∨ isWritten c = true ∨ c = '=' ∨ c = '&' := by
  induction pairs generalizing query with
  | nil => exact .inl hc
  | cons pair rest ih =>
      have hpair : c ∈ writePair pair → isWritten c = true ∨ c = '=' ∨ c = '&' := by
        intro hin
        rw [writePair, List.mem_append, List.mem_cons] at hin
        rcases hin with hname | hmark | hvalue
        · exact .inl (isWritten_of_mem hname)
        · exact .inr (.inl hmark)
        · exact .inl (isWritten_of_mem hvalue)
      have hrest : c ∈ extend (join query (writePair pair)) rest := hc
      rcases ih hrest with hjoined | hmade
      · -- A pair is put behind what is there, with a mark between them if that is
        -- something.
        unfold join at hjoined
        split at hjoined
        · exact .inr (hpair hjoined)
        · rcases List.mem_append.mp hjoined with hquery | hbehind
          · exact .inl hquery
          · rcases List.mem_cons.mp hbehind with hmark | hin
            · exact .inr (.inr (.inr hmark))
            · exact .inr (hpair hin)
      · exact .inr hmade

/-- The bytes a reader makes of characters, with a space for every plus sign. -/
def bytesOf (cs : List Char) : List UInt8 :=
  (cs.map fun c => if c = '+' then ' ' else c).flatMap String.utf8EncodeChar

theorem bytesOf_append (first second : List Char) :
    bytesOf (first ++ second) = bytesOf first ++ bytesOf second := by
  rw [bytesOf, List.map_append, List.flatMap_append]
  rfl

/-- Without a plus sign the bytes are those of the characters. -/
theorem bytesOf_eq_flatMap {cs : List Char} (h : '+' ∉ cs) :
    bytesOf cs = cs.flatMap String.utf8EncodeChar := by
  have hsame : ∀ c ∈ cs, (if c = '+' then ' ' else c) = c := by
    intro c hc
    refine if_neg fun hplus => h ?_
    rw [← hplus]
    exact hc
  rw [bytesOf, List.map_congr_left hsame, List.map_id']

/-- A written character is read as its bytes, whatever follows. -/
theorem decodeFrom_writeChar (c : Char) (rest : List UInt8) :
    Percent.decodeFrom 0 (bytesOf (writeChar c) ++ rest) =
      String.utf8EncodeChar c ++ Percent.decodeFrom 0 rest := by
  rcases writeChar_cases c with ⟨hspace, hwritten⟩ | ⟨hplain, hwritten⟩ | hwritten
  · have hbytes : bytesOf ['+'] = [0x20] := by decide
    have hchar : String.utf8EncodeChar ' ' = [0x20] := by decide
    rw [hwritten, hbytes, hspace, hchar]
    exact Percent.decodeFrom_plain 0x20 rest (by decide)
  · have hascii := toNat_lt_of_isPlain hplain
    have hbytes : String.utf8EncodeChar c = [UInt8.ofNat c.toNat] := by
      have hone : c.val.toNat ≤ 127 := by
        have hcode : c.toNat = c.val.toNat := rfl
        omega
      rw [String.utf8EncodeChar]
      exact if_pos hone
    have hplus : '+' ∉ [c] := by
      rw [List.mem_singleton]
      rintro rfl
      exact absurd hplain (by decide)
    -- A plain character is no percent sign, so its byte means itself.
    have hpercent : UInt8.ofNat c.toNat ≠ 0x25 := by
      intro hbyte
      have hcode : c.toNat = 0x25 := by
        rw [← Utf8.toNat_ofNat_of_lt (show c.toNat < 256 by omega), hbyte]
        rfl
      have hc : c = '%' := by rw [← Char.ofNat_toNat c, hcode]
      rw [hc] at hplain
      exact absurd hplain (by decide)
    rw [hwritten, bytesOf_eq_flatMap hplus, List.flatMap_singleton, hbytes]
    exact Percent.decodeFrom_plain _ rest hpercent
  · have hplus : '+' ∉ (String.utf8EncodeChar c).flatMap Percent.encodeByte := by
      intro hmem
      rcases List.mem_flatMap.mp hmem with ⟨byte, _, hbyte⟩
      rcases Percent.mem_encodeByte hbyte with hpercent | ⟨n, hn, hdigit⟩
      · exact absurd hpercent (by decide)
      · have hall : ∀ m < 16, '+' ≠ Percent.upperHex m := by decide
        exact hall n hn hdigit
    rw [hwritten, bytesOf_eq_flatMap hplus, Percent.decodeFrom_encodeBytes]

/-- A written name or value is read back. -/
theorem readText_writeText (text : String) : readText (writeText text) = text := by
  have hbytes : ∀ cs : List Char, Percent.decodeFrom 0 (bytesOf (cs.flatMap writeChar)) =
      cs.flatMap String.utf8EncodeChar := by
    intro cs
    induction cs with
    | nil => rfl
    | cons c rest ih =>
        rw [List.flatMap_cons, bytesOf_append, decodeFrom_writeChar, ih, List.flatMap_cons]
  -- Percent forms become bytes first, and only all bytes together are a text.
  have hread : readText (writeText text) =
      Utf8.decodeLossy (Percent.decodeFrom 0 (bytesOf (text.toList.flatMap writeChar))) := rfl
  rw [hread, hbytes, Utf8.decodeLossy_flatMap, String.ofList_toList]

/-- A written pair is read back. -/
theorem readPair_writePair (pair : String × String) : readPair (writePair pair) = pair := by
  have hname : ∀ c ∈ writeText pair.1, (c ≠ '=') := by
    intro c hc hmark
    have hwritten := isWritten_of_mem hc
    rw [hmark] at hwritten
    exact absurd hwritten (by decide)
  -- The first equals sign is the one between name and value.
  have hbefore : (writePair pair).takeWhile (· ≠ '=') = writeText pair.1 := by
    rw [writePair, List.takeWhile_append_of_pos (fun c hc => by simpa using hname c hc)]
    simp
  have hafter : (writePair pair).dropWhile (· ≠ '=') = '=' :: writeText pair.2 := by
    rw [writePair, List.dropWhile_append_of_pos (fun c hc => by simpa using hname c hc)]
    simp
  rw [readPair, hbefore, hafter, List.drop_succ_cons, List.drop_zero, readText_writeText,
    readText_writeText]

/-- A written pair is one piece of a query. -/
theorem readPairs_writePair (pair : String × String) : readPairs (writePair pair) = [pair] := by
  have hmark : '&' ∉ writePair pair := by
    intro hmem
    rw [writePair, List.mem_append, List.mem_cons] at hmem
    rcases hmem with hname | hequals | hvalue
    · exact absurd (isWritten_of_mem hname) (by decide)
    · exact absurd hequals (by decide)
    · exact absurd (isWritten_of_mem hvalue) (by decide)
  -- A pair has its equals sign at least, so it is not passed over.
  have hpiece : (writePair pair).isEmpty = false := by
    rw [writePair]
    cases writeText pair.1 <;> rfl
  rw [readPairs, Text.splitOn_of_not_mem _ _ hmark, List.filter_cons, hpiece]
  simp only [Bool.not_false, if_true, List.filter_nil, List.map_cons, List.map_nil,
    readPair_writePair]

/-- An ampersand keeps the pairs before it and behind it apart. -/
theorem readPairs_join (first second : List Char) :
    readPairs (join first second) = readPairs first ++ readPairs second := by
  rw [join]
  cases first with
  | nil => rfl
  | cons c rest =>
      rw [List.isEmpty_cons, if_neg Bool.false_ne_true, readPairs, Text.splitOn_append_cons,
        List.filter_append, List.map_append]
      rfl

/-- Pairs that are written behind a query are read behind its own. -/
theorem readPairs_extend (query : List Char) (pairs : List (String × String)) :
    readPairs (extend query pairs) = readPairs query ++ pairs := by
  induction pairs generalizing query with
  | nil => exact (List.append_nil _).symm
  | cons pair rest ih =>
      have hstep : extend query (pair :: rest) = extend (join query (writePair pair)) rest := rfl
      rw [hstep, ih, readPairs_join, readPairs_writePair, List.append_assoc]
      rfl

end Form

/-- The pairs of a URL with more pairs are its own and these. -/
theorem Url.pairs_addPairs (u : Url) (pairs : List (String × String)) :
    (u.addPairs pairs).pairs = u.pairs ++ pairs := by
  rw [Url.pairs, Url.addPairs, Option.getD_some, String.toList_ofList, Form.readPairs_extend]
  rfl

end TestbedReport
