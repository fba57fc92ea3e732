import TestbedReport.Settings.Placeholder

/-!
# Placeholders Are Filled in One Exact Pass

The pass over a settings file looks at one character at a time and does not know
whether a name it has begun will end. The relation `Filled` looks ahead: at each
place it asks whether a placeholder begins there, and copies a character only if
none does. This module shows that the two agree, and that the relation leaves no
choice, so the pass finds the placeholders from left to right, without overlaps
and without reading again what it put in.

The agreement is in the equations of the pass. Where a placeholder begins the pass
goes to its end and puts in the value (`pass_written`), and everywhere else it
copies one character, as if it had not looked further (`pass_copy`). The second is
the one with an argument in it. An opening brace that nothing closes, or that is
closed at once, takes the pass into a name, and it has to come back with all that
it read on the way.

## Main definitions

* `Placeholder.inBraces`: A placeholder as a text.
* `Placeholder.NoneBegins`: That no placeholder begins in a part of a text.
* `Placeholder.Replaces`: That a name is replaced in a text.

## Theorems

* `Placeholder.pass_written`, `Placeholder.pass_copy`: The equations of the pass.
* `Placeholder.filled_iff`: The pass is the relation.
* `Placeholder.pass_append`: What is in front of the first placeholder stays.
* `Placeholder.fill_exact`: Filling is one exact pass.
-/

namespace TestbedReport

namespace Placeholder

/-- A placeholder for a variable as a text. -/
def inBraces (name : String) : String :=
  "$\x7b" ++ name ++ "\x7d"

/-- Whether no placeholder begins in a part of a text, given what is behind the
    part. A placeholder may begin in front of what is behind and reach into it. -/
def NoneBegins (before behind : List Char) : Prop :=
  ∀ first last, before = first ++ last → last ≠ [] → ¬Begins (last ++ behind)

/-- Whether a name is replaced in a text: a placeholder with it begins at a place
    that is reached from left to right. -/
inductive Replaces (name : List Char) : List Char → Prop where
  | here {rest : List Char} (nonempty : name ≠ []) (closed : '\x7d' ∉ name) :
      Replaces name (written name ++ rest)
  | copy {c : Char} {rest : List Char} (h : ¬Begins (c :: rest)) (later : Replaces name rest) :
      Replaces name (c :: rest)
  | behind {other rest : List Char} (nonempty : other ≠ []) (closed : '\x7d' ∉ other)
      (later : Replaces name rest) : Replaces name (written other ++ rest)

/-- A placeholder begins with a dollar sign. -/
theorem not_begins_of_ne {c : Char} (hc : c ≠ '$') (rest : List Char) : ¬Begins (c :: rest) := by
  rintro ⟨name, behind, _, _, heq⟩
  exact hc (List.cons.inj heq).1

theorem begins_written {name : List Char} (hname : name ≠ []) (hclosed : '\x7d' ∉ name)
    (rest : List Char) : Begins (written name ++ rest) :=
  ⟨name, rest, hname, hclosed, rfl⟩

theorem written_append (name rest : List Char) :
    written name ++ rest = '$' :: '\x7b' :: (name ++ '\x7d' :: rest) := by
  rw [written, List.append_assoc, List.singleton_append, List.cons_append, List.cons_append]

/-- No placeholder begins in a part of a text if none begins at its first character
    and none behind that. -/
theorem noneBegins_cons (c : Char) (before behind : List Char) :
    NoneBegins (c :: before) behind ↔
      ¬Begins (c :: (before ++ behind)) ∧ NoneBegins before behind := by
  constructor
  · intro h
    exact ⟨h [] (c :: before) rfl (List.cons_ne_nil c before), fun first last hsplit =>
      h (c :: first) last (congrArg (c :: ·) hsplit)⟩
  · rintro ⟨hfirst, hothers⟩ first last hsplit hlast
    -- The place is the first character, or one of those behind it.
    cases first with
    | nil =>
        rw [List.nil_append] at hsplit
        rw [← hsplit]
        exact hfirst
    | cons d first => exact hothers first last (List.cons.inj hsplit).2 hlast

/-- Without a dollar sign no placeholder begins. -/
theorem noneBegins_of_not_mem {before : List Char} (h : '$' ∉ before) (behind : List Char) :
    NoneBegins before behind := by
  induction before with
  | nil => exact fun first last hsplit hlast =>
      absurd (List.append_eq_nil_iff.mp hsplit.symm).2 hlast
  | cons c before ih =>
      rw [List.mem_cons, not_or] at h
      exact (noneBegins_cons c before behind).mpr
        ⟨not_begins_of_ne (fun hc => h.1 hc.symm) _, ih h.2⟩

section Pass

variable (environment : Environment)

/-- A name that nothing closes comes out as it was read. -/
theorem pass_inName_of_not_mem (reversed cs : List Char) (h : '\x7d' ∉ cs) :
    pass environment (.inName reversed) cs = '$' :: '\x7b' :: (reversed.reverse ++ cs) := by
  induction cs generalizing reversed with
  | nil => rw [pass, List.append_nil]
  | cons c rest ih =>
      rw [List.mem_cons, not_or] at h
      rw [pass, if_neg fun hc => h.1 hc.symm, ih (c :: reversed) h.2, List.reverse_cons,
        List.append_assoc, List.singleton_append]

/-- A name goes up to the first closing brace. -/
theorem pass_inName_append (reversed name rest : List Char) (h : '\x7d' ∉ name) :
    pass environment (.inName reversed) (name ++ '\x7d' :: rest) =
      pass environment (.inName (name.reverse ++ reversed)) ('\x7d' :: rest) := by
  induction name generalizing reversed with
  | nil => rfl
  | cons c name ih =>
      rw [List.mem_cons, not_or] at h
      rw [List.cons_append, pass, if_neg fun hc => h.1 hc.symm, ih (c :: reversed) h.2,
        List.reverse_cons, List.append_assoc, List.singleton_append]

/-- Where a placeholder begins, its value is put in and the pass goes on behind it. -/
theorem pass_written {name : List Char} (hname : name ≠ []) (hclosed : '\x7d' ∉ name)
    (rest : List Char) :
    pass environment .outside (written name ++ rest) =
      valueOf environment name ++ pass environment .outside rest := by
  have hreversed : ¬(name.reverse ++ []).isEmpty = true := by
    rw [List.append_nil, List.isEmpty_iff, List.reverse_eq_nil_iff]
    exact hname
  rw [written_append, pass, if_pos rfl, pass, if_pos rfl,
    pass_inName_append environment [] name rest hclosed, pass, if_pos rfl, if_neg hreversed,
    List.append_nil, List.reverse_reverse]

/-- Braces with nothing between them are copied. -/
theorem pass_inName_nil (rest : List Char) :
    pass environment (.inName []) ('\x7d' :: rest) =
      '$' :: '\x7b' :: '\x7d' :: pass environment .outside rest := by
  rw [pass, if_pos rfl]
  rfl

/-- Behind a dollar sign only a brace makes a difference. -/
theorem pass_dollar (c : Char) (rest : List Char) :
    pass environment .dollar (c :: rest) =
      if c = '\x7b' then pass environment (.inName []) rest
      else '$' :: pass environment .outside (c :: rest) := by
  by_cases hbrace : c = '\x7b'
  · rw [if_pos hbrace, pass, if_pos hbrace]
  · rw [if_neg hbrace]
    -- A second dollar sign waits for a brace of its own.
    by_cases hc : c = '$'
    · subst hc
      rfl
    · have houtside : pass environment .outside (c :: rest) =
          c :: pass environment .outside rest := by rw [pass, if_neg hc]
      rw [houtside, pass, if_neg hbrace, if_neg hc]

/-- A text that is closed nowhere is copied, from any place outside of a name. -/
theorem pass_of_not_mem (cs : List Char) (h : '\x7d' ∉ cs) :
    pass environment .outside cs = cs ∧ pass environment .dollar cs = '$' :: cs := by
  induction cs with
  | nil => exact ⟨rfl, rfl⟩
  | cons c rest ih =>
      rw [List.mem_cons, not_or] at h
      rcases ih h.2 with ⟨houtside, hdollar⟩
      have hcopied : pass environment .outside (c :: rest) = c :: rest := by
        by_cases hc : c = '$'
        · rw [pass, if_pos hc, hdollar, hc]
        · rw [pass, if_neg hc, houtside]
      refine ⟨hcopied, ?_⟩
      rw [pass_dollar, hcopied]
      -- A name that is not closed is copied together with its opening.
      by_cases hbrace : c = '\x7b'
      · rw [if_pos hbrace, pass_inName_of_not_mem environment [] rest h.2, hbrace]
        rfl
      · rw [if_neg hbrace]

/-- Where no placeholder begins, one character is copied. -/
theorem pass_copy {c : Char} {rest : List Char} (h : ¬Begins (c :: rest)) :
    pass environment .outside (c :: rest) = c :: pass environment .outside rest := by
  by_cases hc : c = '$'
  · subst hc
    rw [pass, if_pos rfl]
    cases rest with
    | nil => rfl
    | cons d rest =>
        rw [pass_dollar]
        by_cases hbrace : d = '\x7b'
        · subst hbrace
          have hopening : pass environment .outside ('\x7b' :: rest) =
              '\x7b' :: pass environment .outside rest := rfl
          rw [if_pos rfl, hopening]
          by_cases hclosed : '\x7d' ∈ rest
          · -- The name ends, but a placeholder would begin if there were anything in it.
            rcases List.eq_append_cons_of_mem hclosed with ⟨name, behind, rfl, hname⟩
            have hnil : name = [] := by
              cases name with
              | nil => rfl
              | cons first others =>
                  refine absurd ?_ h
                  rw [← written_append]
                  exact begins_written (List.cons_ne_nil first others) hname behind
            rw [hnil, List.nil_append, pass_inName_nil]
            rfl
          · rw [pass_inName_of_not_mem environment [] rest hclosed,
              (pass_of_not_mem environment rest hclosed).1]
            rfl
        · rw [if_neg hbrace]
  · rw [pass, if_neg hc]

/-- Every text becomes what the pass makes of it. -/
theorem filled_pass (cs : List Char) : Filled environment cs (pass environment .outside cs) := by
  -- A placeholder may be long, so the induction is on the length of what is left.
  induction hlength : cs.length using Nat.strongRecOn generalizing cs with
  | ind length ih =>
    subst hlength
    by_cases hbegins : Begins cs
    · rcases hbegins with ⟨name, rest, hname, hclosed, rfl⟩
      rw [pass_written environment hname hclosed]
      refine .replace hname hclosed (ih rest.length ?_ rest rfl)
      rw [written_append, List.length_cons, List.length_cons, List.length_append, List.length_cons]
      omega
    · cases cs with
      | nil => exact .done
      | cons c rest =>
          rw [pass_copy environment hbegins]
          exact .copy hbegins (ih rest.length (Nat.lt_succ_self _) rest rfl)

/-- A text becomes what the pass makes of it, and nothing else. -/
theorem filled_iff (cs out : List Char) :
    Filled environment cs out ↔ out = pass environment .outside cs := by
  constructor
  · -- The reference goes by segments, and the pass follows it segment by segment.
    intro h
    induction h with
    | done => rfl
    | copy h _ ih => rw [pass_copy environment h, ih]
    | replace hname hclosed _ ih => rw [pass_written environment hname hclosed, ih]
  · rintro rfl
    exact filled_pass environment cs

/-- A text in which no name with a value is replaced stays as it is. -/
theorem pass_eq_self (cs : List Char)
    (h : ∀ name, Replaces name cs → environment (String.ofList name) = none) :
    pass environment .outside cs = cs := by
  have hfilled := filled_pass environment cs
  generalize pass environment .outside cs = out at hfilled
  induction hfilled with
  | done => rfl
  | copy hbegins _ ih => rw [ih fun name hname => h name (.copy hbegins hname)]
  | @replace name rest out hname hclosed _ ih =>
      -- A placeholder that is kept and what follows it are all of the text.
      have hunset : valueOf environment name = written name := by
        rw [valueOf, h name (.here hname hclosed)]
      rw [hunset, ih fun other hother => h other (.behind hname hclosed hother)]

/-- Characters in which no placeholder begins stay in front of what becomes of the
    others. -/
theorem pass_append (before behind : List Char) (h : NoneBegins before behind) :
    pass environment .outside (before ++ behind) = before ++ pass environment .outside behind := by
  induction before with
  | nil => rfl
  | cons c before ih =>
      rcases (noneBegins_cons c before behind).mp h with ⟨hfirst, hothers⟩
      rw [List.cons_append, pass_copy environment hfirst, ih hothers, List.cons_append]

end Pass

theorem toList_inBraces (name : String) : (inBraces name).toList = written name.toList := by
  rw [inBraces, String.toList_append, String.toList_append]
  rfl

theorem toList_fill (environment : Environment) (text : String) :
    (fill environment text).toList = pass environment .outside text.toList := by
  rw [fill, String.toList_ofList]

/-- What stands for a name as a text. -/
theorem ofList_valueOf (environment : Environment) (name : String) :
    String.ofList (valueOf environment name.toList) =
      (environment name).getD (inBraces name) := by
  unfold valueOf
  rw [String.ofList_toList]
  cases environment name with
  | none => rw [← toList_inBraces, String.ofList_toList, Option.getD_none]
  | some value => rw [String.ofList_toList, Option.getD_some]

/-- A placeholder behind characters in which none begins. -/
theorem fill_append_inBraces (environment : Environment) (before name behind : String)
    (hbefore : NoneBegins before.toList (inBraces name ++ behind).toList) (hname : name ≠ "")
    (hclosed : '\x7d' ∉ name.toList) :
    fill environment (before ++ inBraces name ++ behind) =
      before ++ (environment name).getD (inBraces name) ++ fill environment behind := by
  have hnonempty : name.toList ≠ [] := fun hnil => hname (String.toList_eq_nil_iff.mp hnil)
  rw [String.append_assoc, ← String.toList_inj, toList_fill, String.toList_append,
    pass_append environment _ _ hbefore, String.toList_append, toList_inBraces,
    pass_written environment hnonempty hclosed, ← ofList_valueOf, String.toList_append,
    String.toList_append, String.toList_ofList, toList_fill, List.append_assoc]

/-- **Filling is one exact pass.** What becomes of a text is what the reference says,
    and that leaves no choice. A text of whose names none is set stays as it is, and
    so do braces with nothing between them and an opening that nothing closes. Behind
    characters in which no placeholder begins, a placeholder is replaced by the value
    of its variable, or stays if that is not set, and the rest is filled for itself. -/
theorem fill_exact (environment : Environment) :
    (∀ (text : String) (out : List Char),
      Filled environment text.toList out ↔ out = (fill environment text).toList) ∧
    (∀ text : String,
      (∀ name, Replaces name text.toList → environment (String.ofList name) = none) →
      fill environment text = text) ∧
    (∀ before behind : String, NoneBegins before.toList ("$\x7b\x7d" ++ behind).toList →
      fill environment (before ++ "$\x7b\x7d" ++ behind) =
        before ++ "$\x7b\x7d" ++ fill environment behind) ∧
    (∀ before behind : String, NoneBegins before.toList ("$\x7b" ++ behind).toList →
      '\x7d' ∉ behind.toList →
      fill environment (before ++ "$\x7b" ++ behind) = before ++ "$\x7b" ++ behind) ∧
    ∀ before name behind : String,
      NoneBegins before.toList (inBraces name ++ behind).toList → name ≠ "" →
      '\x7d' ∉ name.toList →
      fill environment (before ++ inBraces name ++ behind) =
        before ++ (environment name).getD (inBraces name) ++ fill environment behind := by
  refine ⟨fun text out => ?_, fun text h => ?_, fun before behind h => ?_,
    fun before behind h hopen => ?_, fill_append_inBraces environment⟩
  · rw [toList_fill]
    exact filled_iff environment text.toList out
  · rw [fill, pass_eq_self environment text.toList h, String.ofList_toList]
  · -- No name is between the braces, so they are copied and the pass goes on.
    have hbraces : pass environment .outside ("$\x7b\x7d" ++ behind).toList =
        "$\x7b\x7d".toList ++ pass environment .outside behind.toList := by
      rw [String.toList_append]
      exact pass_inName_nil environment behind.toList
    rw [String.append_assoc, ← String.toList_inj, toList_fill, String.toList_append,
      pass_append environment _ _ h, hbraces, String.toList_append, String.toList_append,
      toList_fill, List.append_assoc]
  · -- Nothing closes the opening, so the rest is copied as a whole.
    have hnone : '\x7d' ∉ ("$\x7b" ++ behind).toList := by
      rw [String.toList_append, List.mem_append, not_or]
      exact ⟨by decide, hopen⟩
    rw [String.append_assoc, ← String.toList_inj, toList_fill, String.toList_append,
      pass_append environment _ _ h, (pass_of_not_mem environment _ hnone).1]

/-- A dollar sign in front of each form, a value that is a placeholder itself, and names
    none of which is set. -/
theorem fill_exact_nested :
    let environment : Environment := fun name =>
      if name = "A" then some "$\x7bB\x7d" else if name = "B" then some "x" else none
    NoneBegins "$".toList (inBraces "A" ++ "$\x7bB\x7d").toList ∧
      fill environment ("$" ++ inBraces "A" ++ "$\x7bB\x7d") =
        "$" ++ (environment "A").getD (inBraces "A") ++ fill environment "$\x7bB\x7d" ∧
      NoneBegins "$".toList ("$\x7b\x7d" ++ "$\x7bA\x7d").toList ∧
      fill environment ("$" ++ "$\x7b\x7d" ++ "$\x7bA\x7d") =
        "$" ++ "$\x7b\x7d" ++ fill environment "$\x7bA\x7d" ∧
      NoneBegins "$".toList ("$\x7b" ++ "$\x7bA").toList ∧
      fill environment ("$" ++ "$\x7b" ++ "$\x7bA") = "$" ++ "$\x7b" ++ "$\x7bA" ∧
      fill (fun _ => none) "$\x7b$\x7bA\x7dB\x7d" = "$\x7b$\x7bA\x7dB\x7d" := by
  intro environment
  -- In front of another dollar sign a dollar sign opens nothing.
  have hdollar : ∀ behind : List Char, NoneBegins "$".toList ('$' :: behind) := by
    intro behind
    refine (noneBegins_cons '$' [] _).mpr ⟨?_, noneBegins_of_not_mem List.not_mem_nil _⟩
    rintro ⟨name, rest, _, _, heq⟩
    exact absurd (List.cons.inj (List.cons.inj heq).2).1 (by decide)
  rcases fill_exact environment with ⟨_, _, hnameless, hopen, hplaceholder⟩
  exact ⟨hdollar _, hplaceholder "$" "A" _ (hdollar _) (by decide) (by decide), hdollar _,
    hnameless "$" _ (hdollar _), hdollar _, hopen "$" _ (hdollar _) (by decide),
    (fill_exact fun _ => none).2.1 _ fun _ _ => rfl⟩

end Placeholder

end TestbedReport
