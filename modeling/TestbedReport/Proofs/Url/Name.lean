import TestbedReport.Proofs.Url.Encoded
import TestbedReport.Proofs.Url.Numeric
import TestbedReport.Proofs.Url.Punycode

/-!
# A Host That Is Written

A host that has been read is written, and what is written is read as the same host.
For a domain name this is so because a name is brought to a common form once: its
characters are in their common form, a label in ASCII is taken as it is, and a label
in Punycode is the label it was made of.

A domain name can look like an address only if it is one, because this is decided by
the name and nothing else. An address in turn is a domain name by its looks, and the
part in brackets is none.

What is written for a host has no mark in it that would end it. The colons of an
address of version 6 are in brackets, where they do not begin a port.

## Main definitions

* `Domain.isNameChar`: What a domain name is made of.
* `Url.isPlaceChar`: What does not end an authority.
* `Host.Settled`: A host that is read as it is written.

## Theorems

* `Domain.labelToAscii_eq_ok`: A label in ASCII is one for good.
* `Domain.ofBytes_joinLabels`: Labels with dots between them are read.
* `Domain.ofBytes_eq_ok`: A domain name is read as it is.
* `Host.settled_of_parse`: A host is read as it is written.
-/

namespace TestbedReport

/-- What holds of all digits can be checked one by one. -/
theorem forall_isDigit (p : Char → Prop) [DecidablePred p]
    (h : ∀ n < 0x80, (Char.ofNat n).isDigit = true → p (Char.ofNat n)) {c : Char}
    (hc : c.isDigit = true) : p c := by
  have hascii : c.toNat < 0x80 := by
    simp only [Char.isDigit, Bool.and_eq_true, decide_eq_true_eq, UInt32.le_iff_toNat_le] at hc
    exact Nat.lt_of_le_of_lt hc.2 (by decide)
  exact forall_ascii (fun c => c.isDigit = true → p c) h hascii hc

/-- What does not end an authority: neither a slash nor a mark behind it, nor a blank. -/
def Url.isPlaceChar (c : Char) : Bool :=
  !Url.isBlank c && c ≠ '/' && c ≠ '\\' && c ≠ '?' && c ≠ '#'

namespace Domain

section Characters

/-- What a domain name is made of: characters of ASCII in their common form that
    nothing forbids. -/
def isNameChar (c : Char) : Bool :=
  c.toNat < 0x80 && mapChar c = [c] && !isForbidden c

/-- What holds of all characters of names can be checked one by one. -/
theorem forall_isNameChar (p : Char → Prop) [DecidablePred p]
    (h : ∀ n < 0x80, isNameChar (Char.ofNat n) = true → p (Char.ofNat n)) {c : Char}
    (hc : isNameChar c = true) : p c := by
  have hascii : c.toNat < 0x80 := by
    simp only [isNameChar, Bool.and_eq_true, decide_eq_true_eq] at hc
    exact hc.1.1
  exact forall_ascii (fun c => isNameChar c = true → p c) h hascii hc

theorem toNat_ofNat_of_lt {n : Nat} (hn : n < 0xD800) : (Char.ofNat n).toNat = n := by
  have hvalid : n.isValidChar := Or.inl hn
  rw [Char.ofNat, dif_pos hvalid]
  rfl

/-- No character comes into ASCII when it is made small. -/
theorem toNat_lowerChar {c : Char} (hc : 0x80 ≤ c.toNat) : 0x80 ≤ (lowerChar c).toNat := by
  unfold lowerChar
  simp only
  -- Every alphabet is moved upwards within the first planes, where there are no surrogates.
  repeat' split
  all_goals first
    | omega
    | (rw [toNat_ofNat_of_lt (by omega)]; omega)

/-- What a character is mapped to stays as it is, if it is in ASCII. -/
theorem mapChar_of_mem {c d : Char} (hd : d ∈ mapChar c) (hascii : d.toNat < 0x80) :
    mapChar d = [d] := by
  have hlower : ∀ e : Char, e.toNat < 0x80 → mapChar (lowerChar e) = [lowerChar e] := fun e he =>
    forall_ascii (fun e => mapChar (lowerChar e) = [lowerChar e]) (by decide) he
  -- What comes into ASCII is a dot, a space, or the small form of a character of ASCII.
  unfold mapChar at hd
  simp only at hd
  split at hd
  · exact nomatch hd
  · split at hd
    · rw [List.mem_singleton.mp hd]
      decide
    · split at hd
      · next hwide =>
        rw [List.mem_singleton.mp hd]
        exact hlower _ (by rw [toNat_ofNat_of_lt (by omega)]; omega)
      · split at hd
        · rw [List.mem_singleton.mp hd]
          decide
        · rw [List.mem_singleton] at hd
          by_cases hc : c.toNat < 0x80
          · rw [hd]
            exact hlower c hc
          · have hlarge := toNat_lowerChar (Nat.le_of_not_lt hc)
            rw [hd] at hascii
            omega

/-- A digit of Punycode can stand in a name. -/
theorem isNameChar_digit {value : Nat} (h : value < 36) :
    isNameChar (Punycode.digit value) = true ∧ Punycode.digit value ≠ '.' := by
  have hall : ∀ v < 36, isNameChar (Punycode.digit v) = true ∧ Punycode.digit v ≠ '.' := by decide
  exact hall value h

end Characters

section Labels

variable {label name : List Char}

/-- A character of a label that has an ASCII form is as in a name, if it is in ASCII. -/
theorem isNameChar_of_isLabel (h : isLabel label = true) {c : Char} (hc : c ∈ label)
    (hascii : c.toNat < 0x80) : isNameChar c = true := by
  have hallowed := isForbidden_of_isLabel h hc hascii
  simp only [isLabel, Bool.and_eq_true, List.all_eq_true, decide_eq_true_eq] at h
  simp only [isNameChar, Bool.and_eq_true, decide_eq_true_eq, Bool.not_eq_true']
  exact ⟨⟨hascii, (h.2 c hc).1.2⟩, hallowed⟩

/-- A label in ASCII is its own ASCII form. -/
theorem labelToAscii_of_ascii (hascii : ∀ c ∈ label, c.toNat < 0x80)
    (h : labelToAscii label = .ok name) : name = label := by
  have hall : label.all (·.toNat < 0x80) = true :=
    List.all_eq_true.mpr fun c hc => decide_eq_true (hascii c hc)
  unfold labelToAscii at h
  rw [if_pos hall] at h
  repeat' split at h
  all_goals cases h
  all_goals rfl

/-- The ASCII form of any other label is read as the label it was made of. -/
theorem labelToAscii_encode (h : isLabel label = true) :
    labelToAscii (punycodeMark ++ Punycode.encode label) =
      .ok (punycodeMark ++ Punycode.encode label) := by
  have hall : (punycodeMark ++ Punycode.encode label).all (·.toNat < 0x80) = true := by
    rw [List.all_append, Bool.and_eq_true]
    refine ⟨by decide, List.all_eq_true.mpr fun c hc => decide_eq_true ?_⟩
    rcases Punycode.mem_encode hc with ⟨_, hascii⟩ | rfl | ⟨value, hvalue, rfl⟩
    · exact hascii
    · decide
    · exact forall_isNameChar (fun c => c.toNat < 0x80) (by decide) (isNameChar_digit hvalue).1
  have hmark : punycodeMark.isPrefixOf (punycodeMark ++ Punycode.encode label) = true :=
    List.isPrefixOf_iff_prefix.mpr (List.prefix_append _ _)
  unfold labelToAscii
  simp only [hall, hmark, drop_punycodeMark, Punycode.decode?_encode, h, if_true]

/-- **A label in ASCII** is made of what names are made of, and it is one for good. -/
theorem labelToAscii_eq_ok (hmapped : ∀ c ∈ label, c.toNat < 0x80 → mapChar c = [c])
    (hdot : '.' ∉ label) (h : labelToAscii label = .ok name) :
    (∀ c ∈ name, isNameChar c = true ∧ c ≠ '.') ∧ labelToAscii name = .ok name := by
  by_cases hascii : ∀ c ∈ label, c.toNat < 0x80
  · -- A label in ASCII stays as it is.
    have hname := labelToAscii_of_ascii hascii h
    rw [hname]
    rw [hname] at h
    refine ⟨fun c hc => ⟨?_, fun heq => hdot (heq ▸ hc)⟩, h⟩
    simp only [isNameChar, Bool.and_eq_true, decide_eq_true_eq, Bool.not_eq_true']
    exact ⟨⟨hascii c hc, hmapped c hc (hascii c hc)⟩,
      isForbidden_of_labelToAscii h hc (hascii c hc)⟩
  · -- Any other becomes its ASCII form, which is read as itself.
    have hall : label.all (·.toNat < 0x80) = false := Bool.eq_false_iff.mpr fun hall =>
      hascii fun c hc => of_decide_eq_true (List.all_eq_true.mp hall c hc)
    unfold labelToAscii at h
    rw [hall, if_neg Bool.false_ne_true] at h
    split at h
    · next hlabel =>
      rw [← Except.ok.inj h]
      refine ⟨fun c hc => ?_, labelToAscii_encode hlabel⟩
      rcases List.mem_append.mp hc with hmark | hencoded
      · have hall : punycodeMark.all (fun c => isNameChar c ∧ c ≠ '.') = true := by decide
        exact of_decide_eq_true (List.all_eq_true.mp hall c hmark)
      · rcases Punycode.mem_encode hencoded with ⟨hlow, hlowAscii⟩ | hhyphen | ⟨v, hv, hdigit⟩
        · exact ⟨isNameChar_of_isLabel hlabel hlow hlowAscii, fun heq => hdot (heq ▸ hlow)⟩
        · rw [hhyphen]
          decide
        · rw [hdigit]
          exact isNameChar_digit hv
    · cases h

/-- Digits are a label. -/
theorem labelToAscii_digits (h : ∀ c ∈ label, c.isDigit = true) :
    labelToAscii label = .ok label := by
  have hall : label.all (·.toNat < 0x80) = true := List.all_eq_true.mpr fun c hc =>
    decide_eq_true (forall_isDigit (fun c => c.toNat < 0x80) (by decide) (h c hc))
  -- The mark of Punycode has letters.
  have hmark : punycodeMark.isPrefixOf label = false := Bool.eq_false_iff.mpr fun hmark => by
    rcases List.isPrefixOf_iff_prefix.mp hmark with ⟨rest, rfl⟩
    exact absurd (h 'x' (List.mem_append_left _ (by decide))) (by decide)
  have hallowed : label.any isForbidden = false := List.any_eq_false.mpr fun c hc =>
    forall_isDigit (fun c => ¬isForbidden c = true) (by decide) (h c hc)
  unfold labelToAscii
  simp only [hall, hmark, hallowed, if_true, Bool.false_eq_true, if_false]

end Labels

section Names

theorem flatMap_joinLabels {names : List (List Char)} (h : names ≠ []) :
    names.flatMap ('.' :: ·) = '.' :: joinLabels names := by
  induction names with
  | nil => exact absurd rfl h
  | cons name rest ih =>
      -- The last label has no dot behind it, so it is a case of its own.
      cases rest with
      | nil => simp [joinLabels]
      | cons next tail =>
          rw [List.flatMap_cons, ih (List.cons_ne_nil _ _)]
          rfl

theorem isNameChar_of_joinLabels {names : List (List Char)}
    (h : ∀ name ∈ names, ∀ c ∈ name, isNameChar c = true ∧ c ≠ '.') :
    ∀ c ∈ joinLabels names, isNameChar c = true := by
  intro c hc
  cases names with
  | nil => exact nomatch hc
  | cons name rest =>
      -- With a dot in front the labels are all alike.
      have hmem := List.mem_cons_of_mem '.' hc
      rw [← flatMap_joinLabels (List.cons_ne_nil _ _)] at hmem
      rcases List.mem_flatMap.mp hmem with ⟨label, hlabel, hin⟩
      rcases List.mem_cons.mp hin with hdot | hin
      · rw [hdot]
        decide
      · exact (h label hlabel c hin).1

/-- Labels that are read as they are are read together. -/
theorem mapM_labelToAscii {names : List (List Char)}
    (h : ∀ name ∈ names, labelToAscii name = .ok name) :
    names.mapM labelToAscii = .ok names := by
  induction names with
  | nil => rfl
  | cons name rest ih =>
      rw [List.forall_mem_cons] at h
      rw [List.mapM_cons, h.1, ih h.2]
      rfl

/-- Every name is that of a label. -/
theorem exists_of_mem_mapM {labels names : List (List Char)}
    (h : labels.mapM labelToAscii = .ok names) :
    ∀ name ∈ names, ∃ label ∈ labels, labelToAscii label = .ok name := by
  induction labels generalizing names with
  | nil =>
      rw [← Except.ok.inj h]
      exact fun name hname => nomatch hname
  | cons label rest ih =>
      rw [List.mapM_cons] at h
      rcases exists_of_bind_eq_ok h with ⟨first, hfirst, hbehind⟩
      rcases exists_of_bind_eq_ok hbehind with ⟨tail, htail, hnames⟩
      rw [← Except.ok.inj hnames]
      intro name hname
      rcases List.mem_cons.mp hname with hhead | hlater
      · exact ⟨label, List.mem_cons_self, by rw [hhead, hfirst]⟩
      · rcases ih htail name hlater with ⟨other, hother, hread⟩
        exact ⟨other, List.mem_cons_of_mem _ hother, hread⟩

/-- **Labels with dots between them** are read, if each is read as it is. -/
theorem ofBytes_joinLabels {names : List (List Char)} (hnonempty : joinLabels names ≠ [])
    (hchars : ∀ name ∈ names, ∀ c ∈ name, isNameChar c = true ∧ c ≠ '.')
    (hread : ∀ name ∈ names, labelToAscii name = .ok name) :
    ofBytes ((joinLabels names).flatMap String.utf8EncodeChar) =
      .ok (String.ofList (joinLabels names)) := by
  have hne : names ≠ [] := by
    rintro rfl
    exact hnonempty rfl
  -- Mapping leaves the characters of names, and the dots are where they were put.
  have hmapped : (joinLabels names).flatMap mapChar = joinLabels names := by
    have hkept : ∀ c ∈ joinLabels names, mapChar c = [c] := fun c hc =>
      forall_isNameChar (fun c => mapChar c = [c]) (by decide)
        (isNameChar_of_joinLabels hchars c hc)
    rw [List.flatMap_congr hkept, List.flatMap_singleton']
  have hsplit : Text.splitOn '.' (joinLabels names) = names :=
    Text.splitOn_of_flatMap hne (fun name hname hdot => (hchars name hname '.' hdot).2 rfl)
      (flatMap_joinLabels hne)
  have hempty : (joinLabels names).isEmpty = false := by simpa using hnonempty
  unfold ofBytes
  rw [Utf8.decode?_flatMap]
  simp only [String.toList_ofList, hmapped, hsplit, mapM_labelToAscii hread]
  exact if_neg (by rw [hempty]; exact Bool.false_ne_true)

/-- **A domain name** is made of what names are made of, and it is read as it is. -/
theorem ofBytes_eq_ok {bytes : List UInt8} {name : String} (h : ofBytes bytes = .ok name) :
    name.toList ≠ [] ∧ (∀ c ∈ name.toList, isNameChar c = true) ∧
      ofBytes (name.toList.flatMap String.utf8EncodeChar) = .ok name := by
  unfold ofBytes at h
  split at h
  · cases h
  · next text _ =>
    rcases exists_of_bind_eq_ok h with ⟨names, hnames, hname⟩
    simp only at hname
    split at hname
    · cases hname
    · next hnonempty =>
      -- The labels are pieces of a text in its common form, so they have no dots.
      have hsettled : ∀ name ∈ names, (∀ c ∈ name, isNameChar c = true ∧ c ≠ '.') ∧
          labelToAscii name = .ok name := by
        intro name hmem
        rcases exists_of_mem_mapM hnames name hmem with ⟨label, hlabel, hread⟩
        refine labelToAscii_eq_ok (fun c hc hascii => ?_) (fun hdot => ?_) hread
        · rcases List.mem_flatMap.mp (Text.mem_of_mem_splitOn hlabel hc).1 with ⟨d, _, hd⟩
          exact mapChar_of_mem hd hascii
        · exact (Text.mem_of_mem_splitOn hlabel hdot).2 rfl
      have hchars := fun name hmem => (hsettled name hmem).1
      have hne : joinLabels names ≠ [] := by simpa using hnonempty
      rw [← Except.ok.inj hname, String.toList_ofList]
      exact ⟨hne, isNameChar_of_joinLabels hchars,
        ofBytes_joinLabels hne hchars fun name hmem => (hsettled name hmem).2⟩

end Names

end Domain

namespace Host

section Reading

theorem bracketed?_of_head {cs : List Char} (h : cs.head? ≠ some '[') : bracketed? cs = none := by
  unfold bracketed?
  split
  · next rest => exact absurd rfl h
  · rfl

/-- A domain name is read as an address or as the name, which its text decides. -/
theorem parse_of_ofBytes {name : String} (hchars : ∀ c ∈ name.toList, Domain.isNameChar c = true)
    (hread : Domain.ofBytes (name.toList.flatMap String.utf8EncodeChar) = .ok name) :
    parse name.toList = if Ipv4.isMeant name.toList then (Ipv4.parse name.toList).map .ipv4
      else .ok (.domain name) := by
  have hplain : ∀ c ∈ name.toList, c.toNat < 0x80 ∧ c ≠ '%' := fun c hc =>
    Domain.forall_isNameChar (fun c => c.toNat < 0x80 ∧ c ≠ '%') (by decide) (hchars c hc)
  have hbracket : name.toList.head? ≠ some '[' := fun hhead =>
    absurd (hchars '[' (List.mem_of_mem_head? hhead)) (by decide)
  unfold parse
  rw [bracketed?_of_head hbracket, Percent.decode_ascii hplain, hread]
  rfl

/-- What is written for an address of version 4 is a domain name by its looks. -/
theorem ofBytes_ipv4 (address : Nat) :
    (∀ c ∈ Ipv4.write address, Domain.isNameChar c = true) ∧
      Domain.ofBytes ((Ipv4.write address).flatMap String.utf8EncodeChar) =
        .ok (String.ofList (Ipv4.write address)) := by
  -- The four numbers are labels of digits with dots between them.
  have hjoin : Ipv4.write address =
      Domain.joinLabels ((Ipv4.bytesOf address).map Decimal.ofNat) := by
    simp only [Ipv4.write_eq, Ipv4.bytesOf, List.map_cons, List.map_nil, Domain.joinLabels,
      List.append_assoc, List.cons_append]
  have hdigits : ∀ label ∈ (Ipv4.bytesOf address).map Decimal.ofNat, ∀ c ∈ label,
      c.isDigit = true := by
    intro label hlabel c hc
    rcases List.mem_map.mp hlabel with ⟨n, _, rfl⟩
    exact List.all_eq_true.mp (Decimal.all_isDigit_ofNat n) c hc
  have hchars : ∀ label ∈ (Ipv4.bytesOf address).map Decimal.ofNat, ∀ c ∈ label,
      Domain.isNameChar c = true ∧ c ≠ '.' := fun label hlabel c hc =>
    forall_isDigit (fun c => Domain.isNameChar c = true ∧ c ≠ '.') (by decide)
      (hdigits label hlabel c hc)
  have hread : ∀ label ∈ (Ipv4.bytesOf address).map Decimal.ofNat,
      Domain.labelToAscii label = .ok label := fun label hlabel =>
    Domain.labelToAscii_digits (hdigits label hlabel)
  have hne : Domain.joinLabels ((Ipv4.bytesOf address).map Decimal.ofNat) ≠ [] := by
    rw [← hjoin, Ipv4.write_eq]
    simp
  rw [hjoin]
  exact ⟨Domain.isNameChar_of_joinLabels hchars, Domain.ofBytes_joinLabels hne hchars hread⟩

/-- An address of version 4 is read back as the address. -/
theorem parse_ipv4 {address : Nat} (h : address < 256 ^ 4) :
    parse (Ipv4.write address) = .ok (.ipv4 address) := by
  rcases ofBytes_ipv4 address with ⟨hchars, hread⟩
  have hparse := @parse_of_ofBytes (String.ofList (Ipv4.write address))
  rw [String.toList_ofList] at hparse
  rw [hparse hchars hread, Ipv4.isMeant_write, if_pos rfl, Ipv4.parse_write h]
  rfl

/-- An address of version 6 is read from its brackets. -/
theorem parse_ipv6 {groups : List Nat} (hlength : groups.length = 8)
    (hgroups : ∀ group ∈ groups, group < 65536) :
    parse ('[' :: Ipv6.write groups ++ [']']) = .ok (.ipv6 groups) := by
  unfold parse bracketed?
  simp only [List.cons_append, List.getLast?_concat, List.dropLast_concat, if_true,
    Ipv6.parse_write hlength hgroups]
  rfl

end Reading

section Settled

/-- A host that is read as it is written, also with a port behind it, and with nothing
    in it that ends it. -/
structure Settled (host : Host) : Prop where
  nonempty : host.write ≠ []
  reads : parse host.write = .ok host
  chars : ∀ c ∈ host.write, Url.isPlaceChar c = true ∧ c ≠ '@'
  port : ∀ more, Url.splitPort false (host.write ++ more) =
    (host.write ++ (Url.splitPort false more).1, (Url.splitPort false more).2)

theorem splitPort_cons {inBrackets : Bool} {c : Char} (h : ¬(c = ':' ∧ !inBrackets))
    (rest : List Char) :
    let inside := if c = '[' then true else if c = ']' then false else inBrackets
    Url.splitPort inBrackets (c :: rest) =
      (c :: (Url.splitPort inside rest).1, (Url.splitPort inside rest).2) := by
  rw [Url.splitPort, if_neg h]

/-- Without colons and brackets a text is in front of any port. -/
theorem splitPort_append {front : List Char} (h : ∀ c ∈ front, c ≠ ':' ∧ c ≠ '[' ∧ c ≠ ']')
    (more : List Char) : Url.splitPort false (front ++ more) =
      (front ++ (Url.splitPort false more).1, (Url.splitPort false more).2) := by
  induction front with
  | nil => rfl
  | cons c front ih =>
      rw [List.forall_mem_cons] at h
      rcases h.1 with ⟨hcolon, hopen, hclose⟩
      rw [List.cons_append, splitPort_cons (by simp [hcolon])]
      simp only [if_neg hopen, if_neg hclose, ih h.2, List.cons_append]

/-- Colons in brackets begin no port. -/
theorem splitPort_brackets {inner : List Char} (h : ']' ∉ inner) (more : List Char) :
    Url.splitPort true (inner ++ ']' :: more) =
      (inner ++ ']' :: (Url.splitPort false more).1, (Url.splitPort false more).2) := by
  induction inner with
  | nil =>
      rw [List.nil_append, splitPort_cons (by simp)]
      rfl
  | cons c inner ih =>
      rw [List.mem_cons, not_or] at h
      -- Before the bracket is closed, a colon is like any other character.
      have hclose : c ≠ ']' := fun heq => h.1 heq.symm
      rw [List.cons_append, splitPort_cons (by simp)]
      simp only [if_neg hclose, ite_self, ih h.2, List.cons_append]

/-- What a name is made of ends no host and begins no port. -/
theorem isPlaceChar_of_isNameChar {c : Char} (hc : Domain.isNameChar c = true) :
    (Url.isPlaceChar c = true ∧ c ≠ '@') ∧ c ≠ ':' ∧ c ≠ '[' ∧ c ≠ ']' :=
  Domain.forall_isNameChar
    (fun c => (Url.isPlaceChar c = true ∧ c ≠ '@') ∧ c ≠ ':' ∧ c ≠ '[' ∧ c ≠ ']') (by decide) hc

theorem settled_ipv6 {groups : List Nat} (hlength : groups.length = 8)
    (hgroups : ∀ group ∈ groups, group < 65536) : Settled (.ipv6 groups) := by
  have hchars : ∀ c ∈ Ipv6.write groups,
      (Url.isPlaceChar c = true ∧ c ≠ '@') ∧ c ≠ ']' := by
    intro c hc
    rcases Ipv6.mem_write hc with hcolon | ⟨d, hd, hdigit⟩
    · rw [hcolon]
      decide
    · -- The sixteen digits can be tried out.
      have hall : ∀ d < 16, (Url.isPlaceChar (Nat.digitChar d) = true ∧ Nat.digitChar d ≠ '@') ∧
          Nat.digitChar d ≠ ']' := by decide
      rw [hdigit]
      exact hall d hd
  refine ⟨List.cons_ne_nil _ _, parse_ipv6 hlength hgroups, fun c hc => ?_, fun more => ?_⟩
  · simp only [write, List.cons_append, List.mem_cons, List.mem_append, List.not_mem_nil,
      or_false] at hc
    rcases hc with hopen | hin | hclose
    · rw [hopen]
      decide
    · exact (hchars c hin).1
    · rw [hclose]
      decide
  · have hinner := splitPort_brackets (fun hmem => (hchars _ hmem).2 rfl) more
    simp only [write, List.cons_append, List.append_assoc, List.nil_append]
    rw [splitPort_cons (by simp)]
    simp only [if_true, hinner]

/-- A name that is no address, and an address of version 4, have the same marks. -/
theorem settled_of_isNameChar {host : Host} (hne : host.write ≠ [])
    (hreads : parse host.write = .ok host)
    (hchars : ∀ c ∈ host.write, Domain.isNameChar c = true) : Settled host :=
  ⟨hne, hreads, fun c hc => (isPlaceChar_of_isNameChar (hchars c hc)).1,
    splitPort_append fun c hc => (isPlaceChar_of_isNameChar (hchars c hc)).2⟩

/-- **A host** is read as it is written. -/
theorem settled_of_parse {cs : List Char} {host : Host} (h : parse cs = .ok host) :
    Settled host := by
  unfold parse at h
  -- In brackets there is an address of version 6 or nothing at all.
  split at h
  · next outcome hbracketed =>
    unfold bracketed? at hbracketed
    split at hbracketed
    · next rest =>
      rw [← Option.some.inj hbracketed] at h
      split at h
      · cases hgroups : Ipv6.parse rest.dropLast with
        | error fault =>
            rw [hgroups] at h
            cases h
        | ok groups =>
            rw [hgroups] at h
            rcases Ipv6.parse_groups hgroups with ⟨hlength, hbounds⟩
            rw [← Except.ok.inj h]
            exact settled_ipv6 hlength hbounds
      · cases h
    · cases hbracketed
  · rcases exists_of_bind_eq_ok h with ⟨name, hname, hmeant⟩
    rcases Domain.ofBytes_eq_ok hname with ⟨hne, hchars, hread⟩
    have hparse := parse_of_ofBytes hchars hread
    -- A name may look like an address of version 4, and then it must be one.
    split at hmeant
    · cases haddress : Ipv4.parse name.toList with
      | error fault =>
          rw [haddress] at hmeant
          cases hmeant
      | ok address =>
          rw [haddress] at hmeant
          rw [← Except.ok.inj hmeant]
          refine settled_of_isNameChar ?_ (parse_ipv4 (Ipv4.parse_lt haddress))
            (ofBytes_ipv4 address).1
          rw [write, Ipv4.write_eq]
          simp
    · next hother =>
      rw [← Except.ok.inj hmeant]
      refine settled_of_isNameChar hne ?_ hchars
      rw [write, hparse, if_neg hother]

end Settled

end Host

end TestbedReport
