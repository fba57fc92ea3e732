import TestbedReport.Proofs.Record.Rebuilt
import TestbedReport.Json.Value
import TestbedReport.Json.Writer

/-!
# Reading What Was Written as JSON

A value that is written is read back, by a machine that knows nothing of the
writer and takes one character at a time. Every statement below leaves open what
is around the value: the frames that wait for it, and the characters that follow.
So the statement about a value serves for an item and for a member as well.

A number is the one value that does not show where it ends. Behind its last digit
the machine is still inside of it, and only the next character decides. `Behind`
is both at once, a value that is delivered and a number that could be; from there
on the two cannot be told apart, neither by a comma or a bracket nor by the end of
the text.

## Main definitions

* `Json.Behind`: A reader that is behind a value.
* `Json.ReadsAs`: Characters that are read as a value, wherever one is due.
* `Json.Exact`: Values that their text holds as they are.

## Theorems

* `Json.foldlM_escape`: The escaped characters of a text are read as the text.
* `Json.foldlM_text`: A written text is read up to its last quote.
* `Json.readsAs_integer`: The numeral of an integer is read as the integer.
* `Json.foldlM_object`: The members of an object are kept as they were written.
* `Json.readsAs_array`, `Json.readsAs_object`: From the parts to the whole.
* `Json.parse?_toText`: An exact value is read back from its text.
-/

namespace TestbedReport

namespace Json

open Reader

/-- A reader that is behind a value inside of some frames: the value is delivered
    to them, or it is a number that may end here. -/
inductive Behind (d : Document) (frames : List Frame) : Reader → Prop where
  | delivered : Behind d frames (deliver d frames)
  | number (phase : NumberPhase) (parts : NumberText) (hcomplete : phase.complete = true)
      (hd : d = .number parts) : Behind d frames ⟨.number phase parts, frames⟩

/-- The characters that can follow a value inside of an array or object. -/
def isCloser (c : Char) : Bool :=
  c = ',' || c = ']' || c = '\x7d'

/-- Characters that are read as a value of some depth: wherever a value is due,
    they bring the reader behind it. They begin with no blank and close nothing. -/
def ReadsAs (depth : Nat) (value : Json) (cs : List Char) : Prop :=
  (∃ c rest, cs = c :: rest ∧ isSpace c = false ∧ c ≠ ']') ∧
    ∃ d : Document, d.depth ≤ depth ∧ d.valueAnyDepth? = some value ∧
      ∀ frames, ∃ r, cs.foldlM step ⟨.value, frames⟩ = some r ∧ Behind d frames r

/-- Behind a delivered value the next character is judged by what waits for it. -/
theorem step_deliver (d : Document) (frames : List Frame) (c : Char) :
    step (deliver d frames) c =
      closeValue (deliver d frames).place (deliver d frames).frames c := by
  cases frames with
  | nil => rfl
  | cons frame rest => cases frame <;> rfl

/-- A comma or a closing bracket does not belong to a number. -/
theorem extendNumber_closer (phase : NumberPhase) (parts : NumberText) (c : Char)
    (h : isCloser c = true) : extendNumber phase parts c = none := by
  simp only [isCloser, Bool.or_eq_true, decide_eq_true_eq] at h
  rcases h with (rfl | rfl) | rfl <;> cases phase <;> rfl

/-- A comma or a closing bracket cannot tell a number from a delivered value. -/
theorem step_behind {d : Document} {frames : List Frame} {r : Reader} (h : Behind d frames r)
    (c : Char) (hc : isCloser c = true) : step r c = step (deliver d frames) c := by
  cases h with
  | delivered => rfl
  | number phase parts hcomplete hd =>
      rw [step_deliver, hd]
      simp only [step, extendNumber_closer phase parts c hc, hcomplete, if_true]

/-- Neither can the end of the text. -/
theorem finish_behind {d : Document} {r : Reader} (h : Behind d [] r) : finish r = some d := by
  cases h with
  | delivered => rfl
  | number phase parts hcomplete hd => simp only [finish, hcomplete, if_true, hd]

section Texts

/-- An escaped character inside of a text is read as the character. -/
theorem foldlM_escapeChar (keyAfter : Option (List (List TextPiece × Document)))
    (pieces : List TextPiece) (frames : List Frame) (c : Char) :
    (escapeChar c).foldlM step ⟨.text keyAfter pieces .plain, frames⟩ =
      some ⟨.text keyAfter (.char c :: pieces) .plain, frames⟩ := by
  unfold escapeChar
  split
  · rfl
  · rfl
  · rfl
  · rfl
  · rfl
  · rfl
  · rfl
  · next hquote hbackslash _ _ _ _ _ =>
    split
    · -- Any other control character is written with four digits, of which two are zero.
      next hcontrol =>
      have hhigh : Text.hexValue? (escapeDigit (c.toNat / 16)) = some (c.toNat / 16) := by
        have hall : ∀ m < 16, Text.hexValue? (Nat.digitChar m) = some m := by decide
        exact hall _ (by omega)
      have hlow : Text.hexValue? (escapeDigit (c.toNat % 16)) = some (c.toNat % 16) := by
        have hall : ∀ m < 16, Text.hexValue? (Nat.digitChar m) = some m := by decide
        exact hall _ (by omega)
      have hzero : Text.hexValue? '0' = some 0 := by decide
      have hcode : c.toNat / 16 * 16 + c.toNat % 16 = c.toNat := by omega
      have hpiece : pieceOfCode c.toNat = .char c := by
        rw [pieceOfCode, if_neg (by omega), Char.ofNat_toNat]
      have hslash : ('\\' = '"') = False := by decide
      simp [step, extendText, hhigh, hlow, hzero, hslash, hcode, hpiece]
    · next hcontrol =>
      have hslash : c ≠ '\\' := fun hc => hbackslash hc
      have hmark : c ≠ '"' := fun hc => hquote hc
      simp [step, extendText, hslash, hmark, hcontrol]

/-- The escaped characters of a text are read as the text. -/
theorem foldlM_escape (keyAfter : Option (List (List TextPiece × Document)))
    (pieces : List TextPiece) (frames : List Frame) (cs : List Char) :
    (cs.flatMap escapeChar).foldlM step ⟨.text keyAfter pieces .plain, frames⟩ =
      some ⟨.text keyAfter ((cs.map .char).reverse ++ pieces) .plain, frames⟩ := by
  induction cs generalizing pieces with
  | nil => rfl
  | cons c rest ih =>
      rw [List.flatMap_cons, List.foldlM_append, foldlM_escapeChar, Option.bind_eq_bind,
        Option.bind_some, ih, List.map_cons, List.reverse_cons, List.append_assoc]
      rfl

theorem stringOf?_map_char (text : String) : stringOf? (text.toList.map .char) = some text := by
  have hjoin : ∀ cs : List Char, joinPieces? (cs.map .char) = some cs := by
    intro cs
    induction cs with
    | nil => rfl
    | cons c rest ih => rw [List.map_cons, joinPieces?, ih, Option.map_some]
  rw [stringOf?, hjoin, Option.map_some, String.ofList_toList]

/-- A written text, behind its first quote, is read up to its last one. -/
theorem foldlM_text (keyAfter : Option (List (List TextPiece × Document))) (frames : List Frame)
    (text : String) :
    (text.toList.flatMap escapeChar ++ ['"']).foldlM step ⟨.text keyAfter [] .plain, frames⟩ =
      match keyAfter with
      | none => some (deliver (.text (text.toList.map .char)) frames)
      | some before => some ⟨.colon before (text.toList.map .char), frames⟩ := by
  rw [List.foldlM_append, foldlM_escape, Option.bind_eq_bind, Option.bind_some, List.append_nil]
  cases keyAfter with
  | none => simp [step, extendText]
  | some before => simp [step, extendText]

/-- A written text is read as the text. -/
theorem readsAs_text (text : String) (depth : Nat) :
    ReadsAs depth (.text text) (writeText text) := by
  refine ⟨⟨'"', _, rfl, by decide, by decide⟩, .text (text.toList.map .char), Nat.zero_le _, ?_,
    fun frames => ⟨_, foldlM_text none frames text, .delivered⟩⟩
  rw [Document.valueAnyDepth?, stringOf?_map_char, Option.map_some]

end Texts

section Numbers

/-- A numeral begins with a zero only if it is nothing else. -/
theorem head_ofNat (n : Nat) (h : 0 < n) :
    ∃ c rest, Decimal.ofNat n = c :: rest ∧ c ≠ '0' := by
  induction n using Nat.strongRecOn with
  | ind n ih =>
      rw [Decimal.ofNat]
      -- The first digit is that of the number without its last one.
      by_cases hsmall : n < 10
      · have hall : ∀ m < 10, 0 < m → Nat.digitChar m ≠ '0' := by decide
        exact ⟨_, [], Nat.toDigits_of_lt_base hsmall, hall n hsmall h⟩
      · rcases ih (n / 10) (by omega) (by omega) with ⟨c, rest, hdigits, hc⟩
        rw [Decimal.ofNat] at hdigits
        rw [Nat.toDigits_of_base_le (by decide) (by omega), hdigits]
        exact ⟨c, _, rfl, hc⟩

theorem foldlM_digits (negative : Bool) (whole digits : List Char) (frames : List Frame)
    (h : ∀ c ∈ digits, c.isDigit = true) :
    digits.foldlM step ⟨.number .whole ⟨negative, whole, [], none⟩, frames⟩ =
      some ⟨.number .whole ⟨negative, whole ++ digits, [], none⟩, frames⟩ := by
  induction digits generalizing whole with
  | nil => rw [List.append_nil]; rfl
  | cons c rest ih =>
      have hstep : step ⟨.number .whole ⟨negative, whole, [], none⟩, frames⟩ c =
          some ⟨.number .whole ⟨negative, whole ++ [c], [], none⟩, frames⟩ := by
        simp only [step, extendNumber, h c List.mem_cons_self, if_true]
      rw [List.foldlM_cons, hstep, Option.bind_eq_bind, Option.bind_some,
        ih _ fun d hd => h d (List.mem_cons_of_mem c hd), List.append_assoc, List.singleton_append]

/-- The digits of a natural number bring the reader behind a number with these
    digits, from any place where such a number can begin. -/
theorem foldlM_ofNat (n : Nat) (negative : Bool) (frames : List Frame) (start : Reader)
    (hzero : step start '0' = some ⟨.number .zero ⟨negative, ['0'], [], none⟩, frames⟩)
    (hdigit : ∀ c, c.isDigit = true → c ≠ '0' →
      step start c = some ⟨.number .whole ⟨negative, [c], [], none⟩, frames⟩) :
    ∃ phase : NumberPhase, phase.complete = true ∧ (Decimal.ofNat n).foldlM step start =
      some ⟨.number phase ⟨negative, Decimal.ofNat n, [], none⟩, frames⟩ := by
  by_cases hn : n = 0
  · -- Zero has a phase of its own, because no digit may follow it.
    subst hn
    have hdigits : Decimal.ofNat 0 = ['0'] := by decide
    refine ⟨.zero, rfl, ?_⟩
    rw [hdigits, List.foldlM_cons, hzero]
    rfl
  · rcases head_ofNat n (by omega) with ⟨c, rest, hdigits, hc⟩
    have hall := Decimal.all_isDigit_ofNat n
    rw [hdigits, List.all_cons, Bool.and_eq_true, List.all_eq_true] at hall
    refine ⟨.whole, rfl, ?_⟩
    rw [hdigits, List.foldlM_cons, hdigit c hall.1 hc, Option.bind_eq_bind, Option.bind_some,
      foldlM_digits negative [c] rest frames hall.2]
    rfl

theorem ne_of_isDigit {c d : Char} (hc : c.isDigit = true) (hd : d.isDigit = false) : c ≠ d := by
  rintro rfl
  rw [hd] at hc
  exact absurd hc (by decide)

theorem step_value_digit (frames : List Frame) (c : Char) (hc : c.isDigit = true)
    (hzero : c ≠ '0') :
    step ⟨.value, frames⟩ c = some ⟨.number .whole ⟨false, [c], [], none⟩, frames⟩ := by
  have hne : ∀ d : Char, d.isDigit = false → c ≠ d := fun d hd => ne_of_isDigit hc hd
  simp [step, isSpace, openValue, hne, hzero, hc]

theorem step_sign_digit (frames : List Frame) (c : Char) (hc : c.isDigit = true) (hzero : c ≠ '0') :
    step ⟨.number .sign ⟨true, [], [], none⟩, frames⟩ c =
      some ⟨.number .whole ⟨true, [c], [], none⟩, frames⟩ := by
  simp [step, extendNumber, hzero, hc]

/-- The numeral of an integer of 64 bits, with sign or without, is read as the
    integer. -/
theorem readsAs_integer (value : Int) (depth : Nat) (hlow : -0x8000000000000000 ≤ value)
    (hhigh : value ≤ 0xffffffffffffffff) :
    ReadsAs depth (.integer value) (Decimal.ofInt value) := by
  have hdigits : ∀ n, Nat.ofDigitChars 10 (Decimal.ofNat n) 0 = n := fun n => by
    rw [Decimal.ofNat, Nat.ofDigitChars_toDigits (by decide) (by decide)]
  cases value with
  | ofNat n =>
      have hall := Decimal.all_isDigit_ofNat n
      refine ⟨?_, .number ⟨false, Decimal.ofNat n, [], none⟩, Nat.zero_le _, ?_, fun frames => ?_⟩
      · rcases hcs : Decimal.ofNat n with _ | ⟨c, rest⟩
        · exact absurd hcs (Decimal.ofNat_ne_nil n)
        · rw [hcs, List.all_cons, Bool.and_eq_true] at hall
          have hne : ∀ d : Char, d.isDigit = false → c ≠ d := fun d hd => ne_of_isDigit hall.1 hd
          exact ⟨c, rest, hcs, by simp [isSpace, hne], hne ']' (by decide)⟩
      · have hfits : n ≤ maxWord := by
          rw [maxWord]
          have hcast : ((n : Nat) : Int) ≤ 0xffffffffffffffff := hhigh
          omega
        simp [Document.valueAnyDepth?, NumberText.value?, hdigits, hfits]
      · rcases foldlM_ofNat n false frames ⟨.value, frames⟩ rfl (step_value_digit frames) with
          ⟨phase, hcomplete, hread⟩
        exact ⟨_, hread, .number phase _ hcomplete rfl⟩
  | negSucc n =>
      refine ⟨⟨'-', _, rfl, by decide, by decide⟩,
        .number ⟨true, Decimal.ofNat (n + 1), [], none⟩, Nat.zero_le _, ?_, fun frames => ?_⟩
      · -- A negative integer reaches one further than a positive one of 63 bits.
        have hfits : n + 1 ≤ 0x8000000000000000 := by omega
        simp [Document.valueAnyDepth?, NumberText.value?, hdigits, hfits, Int.negSucc_eq]
      · rcases foldlM_ofNat (n + 1) true frames ⟨.number .sign ⟨true, [], [], none⟩, frames⟩ rfl
          (step_sign_digit frames) with ⟨phase, hcomplete, hread⟩
        exact ⟨_, hread, .number phase _ hcomplete rfl⟩

end Numbers

section Words

/-- The three words are read as what they say. -/
theorem readsAs_null (depth : Nat) : ReadsAs depth .null (write .null) :=
  ⟨⟨'n', _, rfl, by decide, by decide⟩, .null, Nat.zero_le _, rfl, fun _ => ⟨_, rfl, .delivered⟩⟩

@[inherit_doc readsAs_null]
theorem readsAs_bool (value : Bool) (depth : Nat) :
    ReadsAs depth (.bool value) (write (.bool value)) := by
  cases value with
  | true =>
      exact ⟨⟨'t', _, rfl, by decide, by decide⟩, .bool true, Nat.zero_le _, rfl,
        fun _ => ⟨_, rfl, .delivered⟩⟩
  | false =>
      exact ⟨⟨'f', _, rfl, by decide, by decide⟩, .bool false, Nat.zero_le _, rfl,
        fun _ => ⟨_, rfl, .delivered⟩⟩

end Words

section Arrays

/-- Behind an item a comma makes room for the next one. -/
theorem step_comma_item {d : Document} {before : List Document} {frames : List Frame} {r : Reader}
    (h : Behind d (.array before :: frames) r) :
    step r ',' = some ⟨.value, .array (d :: before) :: frames⟩ := by
  rw [step_behind h ',' (by decide)]
  rfl

/-- Behind an item a bracket ends the array. -/
theorem step_bracket {d : Document} {before : List Document} {frames : List Frame} {r : Reader}
    (h : Behind d (.array before :: frames) r) :
    step r ']' = some (deliver (.array (before.reverse ++ [d])) frames) := by
  rw [step_behind h ']' (by decide), ← List.reverse_cons]
  rfl

/-- Written items are read one after the other, up to the end of their array. -/
theorem foldlM_items (depth : Nat) (first : Json) (rest : List Json)
    (h : ∀ item ∈ first :: rest, ReadsAs depth item (write item)) :
    ∃ ds : List Document, Document.depthOfItems ds ≤ depth ∧
      Document.valuesOfItems? ds = some (first :: rest) ∧ ∀ before frames,
        (separate (writeItems (first :: rest)) ++ [']']).foldlM step
            ⟨.value, .array before :: frames⟩ =
          some (deliver (.array (before.reverse ++ ds)) frames) := by
  rcases (h first List.mem_cons_self).2 with ⟨d, hdepth, hvalue, hread⟩
  -- The induction is on the items behind the first, for at least one is written.
  induction rest generalizing first d with
  | nil =>
      refine ⟨[d], ?_, ?_, fun before frames => ?_⟩
      · simp only [Document.depthOfItems]
        omega
      · simp only [Document.valuesOfItems?, hvalue]
      · rcases hread (.array before :: frames) with ⟨r, hr, hbehind⟩
        rw [writeItems, writeItems, separate, List.foldlM_append, hr, Option.bind_eq_bind,
          Option.bind_some, List.foldlM_cons, step_bracket hbehind]
        rfl
  | cons second rest ih =>
      have hlater : ∀ item ∈ second :: rest, ReadsAs depth item (write item) :=
        fun item hitem => h item (List.mem_cons_of_mem first hitem)
      rcases (hlater second List.mem_cons_self).2 with ⟨d₂, hdepth₂, hvalue₂, hread₂⟩
      rcases ih second hlater d₂ hdepth₂ hvalue₂ hread₂ with ⟨ds, hdepths, hvalues, hreads⟩
      refine ⟨d :: ds, ?_, ?_, fun before frames => ?_⟩
      · simp only [Document.depthOfItems]
        omega
      · simp only [Document.valuesOfItems?, hvalue, hvalues]
      · rcases hread (.array before :: frames) with ⟨r, hr, hbehind⟩
        have hwritten : separate (writeItems (first :: second :: rest)) ++ [']'] =
            write first ++ ',' :: (separate (writeItems (second :: rest)) ++ [']']) := by
          simp only [writeItems, separate, List.append_assoc, List.cons_append]
        -- The value, its comma, and what the induction has of the rest.
        rw [hwritten, List.foldlM_append, hr, Option.bind_eq_bind, Option.bind_some,
          List.foldlM_cons, step_comma_item hbehind, Option.bind_eq_bind, Option.bind_some,
          hreads, List.reverse_cons, List.append_assoc]
        rfl

/-- An array is read as its items are. -/
theorem readsAs_array (depth : Nat) (items : List Json)
    (h : ∀ item ∈ items, ReadsAs depth item (write item)) :
    ReadsAs (depth + 1) (.array items) (write (.array items)) := by
  refine ⟨⟨'[', _, rfl, by decide, by decide⟩, ?_⟩
  cases items with
  | nil => exact ⟨.array [], Nat.le_add_left _ _, rfl, fun frames => ⟨_, rfl, .delivered⟩⟩
  | cons first rest =>
      rcases foldlM_items depth first rest h with ⟨ds, hdepth, hvalues, hread⟩
      refine ⟨.array ds, ?_, ?_, fun frames => ⟨deliver (.array ds) frames, ?_, .delivered⟩⟩
      · simp only [Document.depth]
        omega
      · simp only [Document.valueAnyDepth?, hvalues, Option.map_some]
      · have hvalue := hread [] frames
        rw [List.reverse_nil, List.nil_append] at hvalue
        rw [← hvalue, write]
        -- The first item begins where the bracket has left room for it.
        rcases (h first List.mem_cons_self).1 with ⟨c, tail, hfirst, hspace, hbracket⟩
        have hwritten : ∃ more, separate (writeItems (first :: rest)) ++ [']'] = c :: more := by
          cases rest with
          | nil => exact ⟨_, by simp only [writeItems, separate, hfirst, List.cons_append]; rfl⟩
          | cons second rest =>
              exact ⟨_, by simp only [writeItems, separate, hfirst, List.cons_append]; rfl⟩
        rcases hwritten with ⟨more, hmore⟩
        have hstep : step ⟨.firstItem, frames⟩ c = step ⟨.value, .array [] :: frames⟩ c := by
          simp [step, hspace, hbracket]
        rw [List.cons_append, List.foldlM_cons, hmore]
        change (c :: more).foldlM step ⟨.firstItem, frames⟩ = _
        rw [List.foldlM_cons, List.foldlM_cons, hstep]

end Arrays

section Objects

/-- Behind a member a comma makes room for the next key. -/
theorem step_comma_member {d : Document} {before : List (List TextPiece × Document)}
    {key : List TextPiece} {frames : List Frame} {r : Reader}
    (h : Behind d (.object before key :: frames) r) :
    step r ',' = some ⟨.key false ((key, d) :: before), frames⟩ := by
  rw [step_behind h ',' (by decide)]
  rfl

/-- Behind a member a brace ends the object. -/
theorem step_brace {d : Document} {before : List (List TextPiece × Document)}
    {key : List TextPiece} {frames : List Frame} {r : Reader}
    (h : Behind d (.object before key :: frames) r) :
    step r '\x7d' = some (deliver (.object (before.reverse ++ [(key, d)])) frames) := by
  rw [step_behind h '\x7d' (by decide), ← List.reverse_cons]
  rfl

/-- A written key and its colon make room for the value. -/
theorem foldlM_key (key : String) (isFirst : Bool) (before : List (List TextPiece × Document))
    (frames : List Frame) :
    (writeText key ++ [':']).foldlM step ⟨.key isFirst before, frames⟩ =
      some ⟨.value, .object before (key.toList.map .char) :: frames⟩ := by
  have hquote : step ⟨.key isFirst before, frames⟩ '"' =
      some ⟨.text (some before) [] .plain, frames⟩ := by
    simp [step, isSpace]
  have hcolon : step ⟨.colon before (key.toList.map .char), frames⟩ ':' =
      some ⟨.value, .object before (key.toList.map .char) :: frames⟩ := by
    simp [step, isSpace]
  rw [writeText, List.cons_append, List.cons_append, List.foldlM_cons, hquote, Option.bind_eq_bind,
    Option.bind_some, List.foldlM_append, foldlM_text, Option.bind_eq_bind, Option.bind_some,
    List.foldlM_cons, hcolon]
  rfl

/-- Written members are read one after the other, up to the end of their object. -/
theorem foldlM_members (depth : Nat) (first : String × Json) (rest : List (String × Json))
    (h : ∀ member ∈ first :: rest, ReadsAs depth member.2 (write member.2)) :
    ∃ ds : List (List TextPiece × Document), Document.depthOfMembers ds ≤ depth ∧
      Document.valuesOfMembers? ds = some (first :: rest) ∧ ∀ isFirst before frames,
        (separate (writeMembers (first :: rest)) ++ ['\x7d']).foldlM step
            ⟨.key isFirst before, frames⟩ =
          some (deliver (.object (before.reverse ++ ds)) frames) := by
  rcases (h first List.mem_cons_self).2 with ⟨d, hdepth, hvalue, hread⟩
  -- As for items, with the key of each member read before its value.
  induction rest generalizing first d with
  | nil =>
      rcases first with ⟨key, value⟩
      refine ⟨[(key.toList.map .char, d)], ?_, ?_, fun isFirst before frames => ?_⟩
      · simp only [Document.depthOfMembers]
        omega
      · simp only [Document.valuesOfMembers?, stringOf?_map_char, hvalue]
      · rcases hread (.object before (key.toList.map .char) :: frames) with ⟨r, hr, hbehind⟩
        have hwritten : separate (writeMembers [(key, value)]) ++ ['\x7d'] =
            (writeText key ++ [':']) ++ (write value ++ ['\x7d']) := by
          simp only [writeMembers, separate, List.append_assoc, List.cons_append, List.nil_append]
        rw [hwritten, List.foldlM_append, foldlM_key, Option.bind_eq_bind, Option.bind_some,
          List.foldlM_append, hr, Option.bind_eq_bind, Option.bind_some, List.foldlM_cons,
          step_brace hbehind]
        rfl
  | cons second rest ih =>
      rcases first with ⟨key, value⟩
      have hlater : ∀ member ∈ second :: rest, ReadsAs depth member.2 (write member.2) :=
        fun member hmember => h member (List.mem_cons_of_mem _ hmember)
      rcases (hlater second List.mem_cons_self).2 with ⟨d₂, hdepth₂, hvalue₂, hread₂⟩
      -- The document of a member depends on its value alone, so the rest is read with
      -- any key in front.
      rcases ih second hlater d₂ hdepth₂ hvalue₂ hread₂ with ⟨ds, hdepths, hvalues, hreads⟩
      refine ⟨(key.toList.map .char, d) :: ds, ?_, ?_, fun isFirst before frames => ?_⟩
      · simp only [Document.depthOfMembers]
        omega
      · simp only [Document.valuesOfMembers?, stringOf?_map_char, hvalue, hvalues]
      · rcases hread (.object before (key.toList.map .char) :: frames) with ⟨r, hr, hbehind⟩
        have hwritten : separate (writeMembers ((key, value) :: second :: rest)) ++ ['\x7d'] =
            (writeText key ++ [':']) ++ (write value ++
              ',' :: (separate (writeMembers (second :: rest)) ++ ['\x7d'])) := by
          simp only [writeMembers, separate, List.append_assoc, List.cons_append, List.nil_append]
        rw [hwritten, List.foldlM_append, foldlM_key, Option.bind_eq_bind, Option.bind_some,
          List.foldlM_append, hr, Option.bind_eq_bind, Option.bind_some, List.foldlM_cons,
          step_comma_member hbehind, Option.bind_eq_bind, Option.bind_some, hreads,
          List.reverse_cons, List.append_assoc]
        rfl

/-- A written object is read with its members as they were written, and is behind itself
    at its brace. -/
theorem foldlM_object (depth : Nat) (members : List (String × Json))
    (h : ∀ member ∈ members, ReadsAs depth member.2 (write member.2)) :
    ∃ ds : List (List TextPiece × Document), Document.depthOfMembers ds ≤ depth ∧
      Document.valuesOfMembers? ds = some members ∧ ∀ frames,
        (write (.object members)).foldlM step ⟨.value, frames⟩ =
          some (deliver (.object ds) frames) := by
  -- Without members there is no first one, and the braces close at once.
  cases members with
  | nil => exact ⟨[], Nat.zero_le _, rfl, fun frames => rfl⟩
  | cons first rest =>
      rcases foldlM_members depth first rest h with ⟨ds, hdepth, hvalues, hread⟩
      refine ⟨ds, hdepth, hvalues, fun frames => ?_⟩
      have hvalue := hread true [] frames
      rw [List.reverse_nil, List.nil_append] at hvalue
      rw [← hvalue, write, List.cons_append, List.foldlM_cons]
      rfl

/-- An object is read as the values of its members are, if no key stands twice. -/
theorem readsAs_object (depth : Nat) (members : List (String × Json))
    (hkeys : (members.map (·.1)).Nodup)
    (h : ∀ member ∈ members, ReadsAs depth member.2 (write member.2)) :
    ReadsAs (depth + 1) (.object members) (write (.object members)) := by
  rcases foldlM_object depth members h with ⟨ds, hdepth, hvalues, hread⟩
  refine ⟨⟨'\x7b', _, rfl, by decide, by decide⟩, .object ds, ?_, ?_,
    fun frames => ⟨_, hread frames, .delivered⟩⟩
  · simp only [Document.depth]
    omega
  · simp only [Document.valueAnyDepth?, hvalues, Option.map_some, Keyed.settle_eq_self _ hkeys]

end Objects

/-- Values up to a depth that their text holds as they are. A float is not one of
    them, since its digits are rounded when they are read, nor is an integer that
    would become a float, nor an object that has a key twice. -/
inductive Exact : Nat → Json → Prop where
  | null (depth : Nat) : Exact depth .null
  | bool (depth : Nat) (value : Bool) : Exact depth (.bool value)
  | integer (depth : Nat) (value : Int) (hlow : -0x8000000000000000 ≤ value)
      (hhigh : value ≤ 0xffffffffffffffff) : Exact depth (.integer value)
  | text (depth : Nat) (value : String) : Exact depth (.text value)
  | array (depth : Nat) (items : List Json) (hitems : ∀ item ∈ items, Exact depth item) :
      Exact (depth + 1) (.array items)
  | object (depth : Nat) (members : List (String × Json)) (hkeys : (members.map (·.1)).Nodup)
      (hmembers : ∀ member ∈ members, Exact depth member.2) : Exact (depth + 1) (.object members)

/-- Whether a value is exact is decided level by level. -/
instance decidableExact : (depth : Nat) → (value : Json) → Decidable (Exact depth value)
  | depth, .null => .isTrue (.null depth)
  | depth, .bool value => .isTrue (.bool depth value)
  | depth, .text value => .isTrue (.text depth value)
  | depth, .integer value =>
    decidable_of_iff (-0x8000000000000000 ≤ value ∧ value ≤ 0xffffffffffffffff)
      ⟨fun h => .integer depth value h.1 h.2, fun | .integer _ _ hlow hhigh => ⟨hlow, hhigh⟩⟩
  | _, .float _ => .isFalse nofun
  | 0, .array _ => .isFalse nofun
  | 0, .object _ => .isFalse nofun
  | depth + 1, .array items =>
    have := decidableExact depth
    decidable_of_iff (∀ item ∈ items, Exact depth item)
      ⟨.array depth items, fun | .array _ _ hitems => hitems⟩
  | depth + 1, .object members =>
    have := decidableExact depth
    decidable_of_iff ((members.map (·.1)).Nodup ∧ ∀ member ∈ members, Exact depth member.2)
      ⟨fun h => .object depth members h.1 h.2,
        fun | .object _ _ hkeys hmembers => ⟨hkeys, hmembers⟩⟩

/-- An integer of 64 bits is exact. -/
theorem exact_int64 (depth : Nat) (value : Int64) : Exact depth (.integer value.toInt) := by
  have hlow := Int64.le_toInt value
  have hhigh := Int64.toInt_lt value
  exact .integer depth value.toInt (by omega) (by omega)

/-- An exact value is read where it was written, from the leaves up. -/
theorem Exact.readsAs {depth : Nat} {value : Json} (h : Exact depth value) :
    ReadsAs depth value (write value) := by
  induction h with
  | null depth => exact readsAs_null depth
  | bool depth value => exact readsAs_bool value depth
  | integer depth value hlow hhigh => exact readsAs_integer value depth hlow hhigh
  | text depth value => exact readsAs_text value depth
  | array depth items _ ih => exact readsAs_array depth items ih
  | object depth members hkeys _ ih => exact readsAs_object depth members hkeys ih

/-- A text that is read as a value has it, if the value is not nested too deep. -/
theorem parse?_of_readsAs {depth : Nat} {value : Json} {cs : List Char} (h : ReadsAs depth value cs)
    (hdepth : depth ≤ maxDepth) : parse? (String.ofList cs) = some value := by
  rcases h with ⟨_, d, hd, hvalue, hread⟩
  rcases hread [] with ⟨r, hr, hbehind⟩
  have hdocument : Document.read? cs = some d := by
    rw [Document.read?, start, hr, Option.bind_some, finish_behind hbehind]
  rw [parse?, String.toList_ofList, hdocument, Option.bind_some, Document.value?,
    if_pos (by omega), hvalue]

/-- An exact value is read back from its text. -/
theorem parse?_toText {depth : Nat} {value : Json} (h : Exact depth value)
    (hdepth : depth ≤ maxDepth) : parse? value.toText = some value :=
  parse?_of_readsAs h.readsAs hdepth

end Json

end TestbedReport
