import TestbedReport.Proofs.Text.Utf8
import TestbedReport.Proofs.Url.Punycode
import TestbedReport.Url.Parse

/-!
# A Host That Ends in a Blank

A text that is read as a URL by itself loses the blanks around it. The same text
with something behind it does not, and a blank that stood at its end is now in the
middle. Where that is the end of the host or the port, there is no URL: this is
shown here, layer by layer from the bytes of a host to the whole authority.

A blank is every character up to the space, so controls are among them. What all
layers need of it is that it is no digit and no mark, and that no percent form,
no sequence of bytes and no label in Punycode can swallow it.

## Main definitions

* `Url.isBlank`: What does not count around a URL.
* `Url.splitUser`, `Url.readPlace`: The two halves of reading an authority.

## Theorems

* `exists_of_bind_eq_ok`: What succeeds has succeeded step by step.
* `forall_ascii`: What holds of all characters of ASCII.
* `Percent.decodeFrom_concat`: Percent forms do not reach a blank.
* `Domain.isForbidden_of_labelToAscii`: A label has nothing forbidden in it.
* `Domain.ofBytes_concat`: No domain name ends in a blank.
* `Url.parseAuthority_eq`: What an authority is, where a host is needed.
* `Url.parseAuthority_concat`: No authority ends in a blank.
-/

namespace TestbedReport

/-- What succeeds has succeeded step by step. -/
theorem exists_of_bind_eq_ok {ε α β : Type} {x : Except ε α} {next : α → Except ε β} {result : β}
    (h : x >>= next = .ok result) : ∃ value, x = .ok value ∧ next value = .ok result := by
  cases x with
  | error fault => cases h
  | ok value => exact ⟨value, rfl, h⟩

/-- What holds of all characters of ASCII can be checked one by one. -/
theorem forall_ascii (p : Char → Prop) [DecidablePred p] (h : ∀ n < 0x80, p (Char.ofNat n))
    {c : Char} (hc : c.toNat < 0x80) : p c := by
  rw [← Char.ofNat_toNat c]
  exact h c.toNat hc

namespace Url

/-- What does not count around a URL. -/
def isBlank (c : Char) : Bool :=
  c.toNat ≤ 0x20

/-- What holds of all blanks can be checked one by one. -/
theorem forall_isBlank (p : Char → Prop) [DecidablePred p]
    (h : ∀ n < 0x21, p (Char.ofNat n)) {c : Char} (hc : isBlank c = true) : p c := by
  have hcode : c.toNat < 0x21 := by
    rw [isBlank, decide_eq_true_eq] at hc
    omega
  rw [← Char.ofNat_toNat c]
  exact h c.toNat hcode

/-- What is behind the last of a mark goes on with what is no mark. -/
theorem behindLast_concat {mark last : Char} (hlast : last ≠ mark) (cs : List Char) :
    ((cs ++ [last]).reverse.takeWhile (· ≠ mark)).reverse =
      (cs.reverse.takeWhile (· ≠ mark)).reverse ++ [last] := by
  rw [List.reverse_append, List.reverse_singleton, List.singleton_append,
    List.takeWhile_cons_of_pos (by simpa using hlast), List.reverse_cons]

end Url

open Url (isBlank forall_isBlank)

namespace Percent

/-- Percent forms do not reach a byte at the end that is no digit. -/
theorem decodeFrom_concat (last : UInt8) (hlast : hexValue? last = none) (bytes : List UInt8)
    (spent : Nat) (hspent : spent ≤ bytes.length) :
    ∃ before, decodeFrom spent (bytes ++ [last]) = before ++ [last] := by
  induction bytes generalizing spent with
  | nil =>
      have hspent : spent = 0 := Nat.le_zero.mp hspent
      refine ⟨[], ?_⟩
      rw [hspent, List.nil_append, decodeFrom]
      split <;> rfl
  | cons byte rest ih =>
      cases spent with
      | succ spent => exact ih spent (Nat.le_of_succ_le_succ hspent)
      | zero =>
          rw [List.cons_append, decodeFrom]
          rcases ih 0 (Nat.zero_le _) with ⟨before, hbefore⟩
          have hkept : ∃ front, byte :: decodeFrom 0 (rest ++ [last]) = front ++ [last] :=
            ⟨byte :: before, by rw [hbefore, List.cons_append]⟩
          split
          · cases hmeant : leadingByte? (rest ++ [last]) with
            | none => exact hkept
            | some meant =>
                -- Both digits of the form stand in front of the last byte.
                have hlong : 2 ≤ rest.length := by
                  match rest, hmeant with
                  | [], hmeant => simp [leadingByte?] at hmeant
                  | [digit], hmeant => simp [leadingByte?, hlast] at hmeant
                  | _ :: _ :: _, _ => simp
                rcases ih 2 hlong with ⟨before, hbefore⟩
                exact ⟨meant :: before, by simp only [hbefore, List.cons_append]⟩
          · exact hkept

end Percent

namespace Domain

/-- Whatever is read as a digit of Punycode is not forbidden. -/
theorem isForbidden_of_digitValue? {c : Char} (hascii : c.toNat < 0x80)
    (h : (Punycode.digitValue? c).isSome = true) : isForbidden c = false :=
  forall_ascii (fun c => (Punycode.digitValue? c).isSome = true → isForbidden c = false)
    (by decide) hascii h

theorem isForbidden_of_isLabel {label : List Char} (h : isLabel label = true) {c : Char}
    (hc : c ∈ label) (hascii : c.toNat < 0x80) : isForbidden c = false := by
  simp only [isLabel, Bool.and_eq_true, List.all_eq_true, Bool.or_eq_true, decide_eq_true_eq,
    Bool.not_eq_true'] at h
  rcases (h.2 c hc).2 with hlarge | hallowed
  · omega
  · exact hallowed

theorem drop_punycodeMark (label : List Char) :
    (punycodeMark ++ label).drop punycodeMark.length = label :=
  List.drop_left

/-- What is read as a label in Punycode has nothing forbidden in it, since the label it
    stands for has not. -/
theorem isForbidden_of_decode? {label decoded : List Char}
    (hmark : punycodeMark.isPrefixOf label = true)
    (hdecoded : Punycode.decode? (label.drop punycodeMark.length) = some decoded)
    (hlabel : isLabel decoded = true) {c : Char} (hc : c ∈ label) (hascii : c.toNat < 0x80) :
    isForbidden c = false := by
  rcases List.isPrefixOf_iff_prefix.mp hmark with ⟨rest, rfl⟩
  rw [drop_punycodeMark] at hdecoded
  -- The mark has nothing forbidden in it, and the rest is basic characters, a
  -- hyphen, or digits.
  rcases List.mem_append.mp hc with hfront | hrest
  · have hall : punycodeMark.all (!isForbidden ·) = true := by decide
    simpa using List.all_eq_true.mp hall c hfront
  · rcases Punycode.mem_of_decode? hdecoded hrest with ⟨hin, _⟩ | hhyphen | hdigit
    · exact isForbidden_of_isLabel hlabel hin hascii
    · rw [hhyphen]
      decide
    · exact isForbidden_of_digitValue? hascii hdigit

/-- **A label** with something forbidden in it has no ASCII form. -/
theorem isForbidden_of_labelToAscii {label name : List Char} (h : labelToAscii label = .ok name)
    {c : Char} (hc : c ∈ label) (hascii : c.toNat < 0x80) : isForbidden c = false := by
  -- Labels in Punycode, other labels in ASCII, and labels that are to be encoded.
  unfold labelToAscii at h
  split at h
  · split at h
    · next hmark =>
      split at h
      · next decoded hdecoded =>
        split at h
        · next hlabel => exact isForbidden_of_decode? hmark hdecoded hlabel hc hascii
        · cases h
      · cases h
    · split at h
      · cases h
      · next hallowed =>
        rw [List.any_eq_true, not_exists] at hallowed
        exact Bool.eq_false_iff.mpr fun hbad => hallowed c ⟨hc, hbad⟩
  · split at h
    · next hlabel => exact isForbidden_of_isLabel hlabel hc hascii
    · cases h

/-- No label ends in a blank. -/
theorem labelToAscii_concat (label : List Char) (last : Char) (hlast : isBlank last = true) :
    ∃ fault, labelToAscii (label ++ [last]) = .error fault := by
  have hascii : last.toNat < 0x80 :=
    forall_isBlank (fun c => c.toNat < 0x80) (by decide) hlast
  have hforbidden : isForbidden last = true :=
    forall_isBlank (fun c => isForbidden c = true) (by decide) hlast
  cases hread : labelToAscii (label ++ [last]) with
  | error fault => exact ⟨fault, rfl⟩
  | ok name =>
      -- The blank is in ASCII and forbidden, so no label has it.
      have hallowed := isForbidden_of_labelToAscii hread
        (List.mem_append_right _ (List.mem_singleton_self last)) hascii
      rw [hforbidden] at hallowed
      exact nomatch hallowed

/-- What is to be read label by label has every label read. -/
theorem exists_of_mapM {f : List Char → Except UrlFault (List Char)}
    {labels names : List (List Char)} (h : labels.mapM f = .ok names) :
    ∀ label ∈ labels, ∃ name, f label = .ok name := by
  induction labels generalizing names with
  | nil => exact fun label hlabel => nomatch hlabel
  | cons first rest ih =>
      rw [List.mapM_cons] at h
      rcases exists_of_bind_eq_ok h with ⟨name, hfirst, hbehind⟩
      rcases exists_of_bind_eq_ok hbehind with ⟨tail, hrest, _⟩
      intro label hlabel
      rcases List.mem_cons.mp hlabel with hlabel | hlabel
      · exact ⟨name, by rw [hlabel, hfirst]⟩
      · exact ih hrest label hlabel

/-- No domain name ends in a blank. -/
theorem ofBytes_concat (bytes : List UInt8) (last : Char) (hlast : isBlank last = true) :
    ∃ fault, ofBytes (bytes ++ [UInt8.ofNat last.toNat]) = .error fault := by
  have hmap : mapChar last = [last] :=
    forall_isBlank (fun c => mapChar c = [c]) (by decide) hlast
  have hdot : '.' ∉ [last] := forall_isBlank (fun c => '.' ∉ [c]) (by decide) hlast
  have hcode : last.toNat < 0x80 :=
    forall_isBlank (fun c => c.toNat < 0x80) (by decide) hlast
  have hbyte : (UInt8.ofNat last.toNat).toNat = last.toNat :=
    Utf8.toNat_ofNat_of_lt (by omega)
  rw [ofBytes]
  cases hdecoded : Utf8.decode? (bytes ++ [UInt8.ofNat last.toNat]) with
  | none => exact ⟨_, rfl⟩
  | some text =>
      rcases Utf8.decode?_concat (by omega) hdecoded with ⟨before, htext⟩
      rw [hbyte, Char.ofNat_toNat] at htext
      have hmapped : text.toList.flatMap mapChar = before.flatMap mapChar ++ [last] := by
        rw [htext, List.flatMap_append, List.flatMap_singleton, hmap]
      rcases Text.splitOn_append_of_not_mem '.' (before.flatMap mapChar) [last] hdot with
        ⟨labels, label, _, hlabels⟩
      -- The blank is no dot, so it is the end of the last label.
      simp only [hmapped, hlabels]
      cases hnames : (labels ++ [label ++ [last]]).mapM labelToAscii with
      | error fault => exact ⟨fault, rfl⟩
      | ok names =>
          have hmem : label ++ [last] ∈ labels ++ [label ++ [last]] :=
            List.mem_append_right _ (List.mem_singleton_self _)
          rcases exists_of_mapM hnames _ hmem with ⟨name, hname⟩
          rcases labelToAscii_concat label last hlast with ⟨fault, hfault⟩
          rw [hfault] at hname
          exact nomatch hname

end Domain

namespace Host

/-- No host ends in a blank. -/
theorem parse_concat (cs : List Char) (last : Char) (hlast : isBlank last = true) :
    ∃ fault, parse (cs ++ [last]) = .error fault := by
  have hbracket : last ≠ ']' := forall_isBlank (fun c => c ≠ ']') (by decide) hlast
  have hopening : last ≠ '[' := forall_isBlank (fun c => c ≠ '[') (by decide) hlast
  have hdigit : Percent.hexValue? (UInt8.ofNat last.toNat) = none :=
    forall_isBlank (fun c => Percent.hexValue? (UInt8.ofNat c.toNat) = none) (by decide) hlast
  have hbytes : String.utf8EncodeChar last = [UInt8.ofNat last.toNat] :=
    forall_isBlank (fun c => String.utf8EncodeChar c = [UInt8.ofNat c.toNat]) (by decide) hlast
  have hname : ∃ fault,
      Domain.ofBytes (Percent.decode ((cs ++ [last]).flatMap String.utf8EncodeChar)) =
        .error fault := by
    rw [List.flatMap_append, List.flatMap_singleton, hbytes]
    rcases Percent.decodeFrom_concat _ hdigit (cs.flatMap String.utf8EncodeChar) 0
      (Nat.zero_le _) with ⟨before, hbefore⟩
    rw [Percent.decode, hbefore]
    exact Domain.ofBytes_concat before last hlast
  rw [parse]
  cases hhost : bracketed? (cs ++ [last]) with
  | none =>
      rcases hname with ⟨fault, hfault⟩
      exact ⟨fault, by simp only [hfault]; rfl⟩
  | some host =>
      -- A bracket at the front wants one at the end.
      cases cs with
      | nil => simp [bracketed?, hopening] at hhost
      | cons c tail =>
          by_cases hc : c = '['
          · have hend : (tail ++ [last]).getLast? ≠ some ']' := by
              simpa using hbracket
            rw [hc, List.cons_append, bracketed?, if_neg hend] at hhost
            rw [← Option.some.inj hhost]
            exact ⟨_, rfl⟩
          · simp [bracketed?, hc] at hhost

end Host

namespace Url

/-- What is no colon at the end is at the end of the host, or of the port if there
    is one. -/
theorem splitPort_concat (inBrackets : Bool) (cs : List Char) (last : Char) (hlast : last ≠ ':') :
    (∃ host, splitPort inBrackets (cs ++ [last]) = (host ++ [last], none)) ∨
      ∃ host port, splitPort inBrackets (cs ++ [last]) = (host, some (port ++ [last])) ∧
        ∀ c ∈ port, c ∈ cs := by
  induction cs generalizing inBrackets with
  | nil => exact .inl ⟨[], by simp [splitPort, hlast]⟩
  | cons c rest ih =>
      rw [List.cons_append, splitPort]
      split
      · exact .inr ⟨[], rest, rfl, fun d hd => List.mem_cons_of_mem c hd⟩
      · -- The rest is split under the brackets as they are behind `c`.
        rcases ih (if c = '[' then true else if c = ']' then false else inBrackets) with
          ⟨host, hhost⟩ | ⟨host, port, hport, hmem⟩
        · exact .inl ⟨c :: host, by simp only [hhost, List.cons_append]⟩
        · exact .inr ⟨c :: host, port, by simp only [hport],
            fun d hd => List.mem_cons_of_mem c (hmem d hd)⟩

/-- The text before the last `@` of an authority, and host and port behind it. -/
def splitUser (cs : List Char) : Option (List Char) × List Char :=
  match splitLast? '@' cs with
  | some (before, after) => (some before, after)
  | none => (none, cs)

/-- The reading of a host and the port behind it, with a user that is settled. -/
def readPlace (kind : SchemeKind) (user : String × Option String) (host : List Char)
    (port : Option (List Char)) : Except UrlFault (Authority × List Char) := do
  let digits := (port.getD []).takeWhile (· ≠ '\\')
  let host ← Host.parse host
  let number ← parsePort kind digits
  return (⟨user.1, user.2, host, number⟩, (port.getD []).drop digits.length)

theorem error_bind {α β : Type} (fault : UrlFault) (next : α → Except UrlFault β) :
    (Except.error fault >>= next) = .error fault :=
  rfl

/-- Where a host is needed, an authority does not depend on what follows it. -/
theorem parseAuthority_eq (kind : SchemeKind) (hkind : kind.isSpecial = true) (cs : List Char)
    (follows : Bool) :
    parseAuthority kind cs follows =
      if (splitPort false (splitUser cs).2).1.isEmpty then .error .emptyHost
      else readPlace kind (parseUser ((splitUser cs).1.getD []))
        (splitPort false (splitUser cs).2).1 (splitPort false (splitUser cs).2).2 := by
  have hempty : ∀ place : List Char, (splitPort false place).1.isEmpty = false →
      place.isEmpty = false := by
    intro place h
    cases place with
    | nil => exact h
    | cons c rest => rfl
  -- Whether there is an `@` makes no difference for what is read behind it.
  rw [parseAuthority, splitUser]
  cases splitLast? '@' cs with
  | none =>
      cases hhost : (splitPort false cs).1.isEmpty with
      | true => simp [hkind, hhost, error_bind]
      | false => simp [hkind, hhost, readPlace]
  | some parts =>
      cases hhost : (splitPort false parts.2).1.isEmpty with
      | true => simp [hkind, hhost, error_bind]
      | false => simp [hkind, hhost, hempty _ hhost, readPlace]

/-- No authority ends in a blank. -/
theorem parseAuthority_concat (kind : SchemeKind) (hkind : kind.isSpecial = true) (cs : List Char)
    (hslash : '\\' ∉ cs) (last : Char) (hlast : isBlank last = true) (follows : Bool) :
    ∃ fault, parseAuthority kind (cs ++ [last]) follows = .error fault := by
  have hat : last ≠ '@' := forall_isBlank (fun c => c ≠ '@') (by decide) hlast
  have hback : last ≠ '\\' := forall_isBlank (fun c => c ≠ '\\') (by decide) hlast
  have hcolon : last ≠ ':' := forall_isBlank (fun c => c ≠ ':') (by decide) hlast
  have hdigit : last.isDigit = false := forall_isBlank (fun c => c.isDigit = false)
    (by decide) hlast
  -- The blank is no `@` either, so it is behind the user.
  have hplace : ∃ before, (splitUser (cs ++ [last])).2 = before ++ [last] ∧ '\\' ∉ before := by
    rw [splitUser, splitLast?, behindLast_concat hat]
    split
    · next before after hsome =>
      split at hsome
      · exact nomatch hsome
      · cases hsome
        refine ⟨_, rfl, fun hmem => hslash ?_⟩
        rw [List.mem_reverse] at hmem
        exact List.mem_reverse.mp ((List.takeWhile_sublist _).mem hmem)
    · exact ⟨cs, rfl, hslash⟩
  rcases hplace with ⟨before, hbefore, hnone⟩
  rw [parseAuthority_eq kind hkind, hbefore]
  split
  · exact ⟨_, rfl⟩
  · rw [readPlace]
    rcases splitPort_concat false before last hcolon with ⟨host, hhost⟩ | ⟨host, port, hport, hmem⟩
    · rcases Host.parse_concat host last hlast with ⟨fault, hfault⟩
      rw [hhost, hfault]
      exact ⟨fault, rfl⟩
    · -- Without a backslash the port goes up to the blank, which is no digit.
      have hdigits : (port ++ [last]).takeWhile (· ≠ '\\') = port ++ [last] := by
        rw [List.takeWhile_append_of_pos, List.takeWhile_cons_of_pos (by simpa using hback)]
        · rfl
        · intro c hc
          simpa using fun hmark : c = '\\' => hnone (hmark ▸ hmem c hc)
      have hall : (port ++ [last]).all Char.isDigit = false := by
        rw [List.all_append, List.all_cons, hdigit]
        simp only [Bool.false_and, Bool.and_false]
      rw [hport]
      cases Host.parse host with
      | error fault => exact ⟨fault, rfl⟩
      | ok host =>
          simp only [Option.getD_some, hdigits, parsePort, hall, Bool.false_eq_true, if_false]
          exact ⟨_, rfl⟩

end Url

end TestbedReport
