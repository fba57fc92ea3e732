import TestbedReport.Toml.Text

/-!
# Texts That Stand for Themselves

Between double quotes a text can be written in many ways, and most of them look
different from the text. This module says which do not: a text comes out as it was
written if and only if no character in it needs an escape (`text?_eq_self_iff`).

One direction is reading. For the other it is enough to count. Every escape takes
at least two characters for at most one, so a text with an escape in it comes out
shorter than it was written (`length_unescape?`), and a text that was cut off at a
quote, or read between three of them, has lost characters before any escape is
undone (`length_cutLines?`). A text of the same length can only be the one that was
written, with the quotes around it as its ends.

## Main definitions

* `Toml.Verbatim`: Characters that need no escape between double quotes.

## Theorems

* `Toml.length_unescape?`: Undoing escapes makes no text longer.
* `Toml.verbatim_of_unescape?`: What comes out in full length had no escapes.
* `Toml.cutLine?_eq_some`: What is cut off at a quote.
* `Toml.length_cutLines?`: Three quotes are not part of the text.
* `Toml.text?_eq_self_iff`: When a text comes out as it was written.
-/

namespace TestbedReport

namespace Toml

/-- Whether characters need no escape to stand between double quotes: there is no
    quote, no backslash and no control but the tab among them. -/
def Verbatim (cs : List Char) : Prop :=
  ∀ c ∈ cs, c ≠ '"' ∧ c ≠ '\\' ∧ isPrintable c = true

instance (cs : List Char) : Decidable (Verbatim cs) :=
  decidable_of_iff (cs.all fun c => c ≠ '"' && (c ≠ '\\' && isPrintable c)) (by
    simp only [Verbatim, List.all_eq_true, Bool.and_eq_true, decide_eq_true_eq])

/-- Undoing escapes makes no text longer. -/
theorem length_unescape? (lines : Bool) (place : EscapePlace) (cs text : List Char)
    (h : unescape? lines place cs = some text) : text.length ≤ cs.length := by
  -- Wherever the undoing is, a character is read for each that comes out.
  induction cs generalizing place text with
  | nil =>
      cases place with
      | outside => exact (Option.some.inj h) ▸ Nat.le_refl 0
      | begun => exact nomatch h
      | digits missing value => exact nomatch h
      | gap ended =>
          cases ended with
          | false => exact nomatch h
          | true => exact (Option.some.inj h) ▸ Nat.le_refl 0
  | cons c rest ih =>
      have hskip : ∀ next, unescape? lines next rest = some text →
          text.length ≤ (c :: rest).length := fun next hnext =>
        Nat.le_succ_of_le (ih next text hnext)
      have hpush : ∀ d, (unescape? lines .outside rest).map (d :: ·) = some text →
          text.length ≤ (c :: rest).length := by
        intro d hd
        rcases Option.map_eq_some_iff.mp hd with ⟨tail, htail, rfl⟩
        exact Nat.succ_le_succ (ih .outside tail htail)
      cases place with
      | outside =>
          rw [unescape?] at h
          split at h
          · exact hskip _ h
          · split at h
            · exact hpush _ h
            · exact nomatch h
      | begun =>
          rw [unescape?] at h
          split at h
          · exact hpush _ h
          · exact hskip _ h
          · split at h
            · exact hskip _ h
            · split at h
              · exact hskip _ h
              · exact nomatch h
      | digits missing value =>
          rw [unescape?] at h
          split at h
          · exact nomatch h
          · split at h
            · exact hskip _ h
            · simp only at h
              split at h
              · exact hpush _ h
              · exact nomatch h
      | gap ended =>
          rw [unescape?] at h
          split at h
          · exact hskip _ h
          · split at h
            · exact hskip _ h
            · split at h
              · exact nomatch h
              · split at h
                · exact hskip _ h
                · split at h
                  · exact hpush _ h
                  · exact nomatch h

/-- What comes out of a line in full length had no escapes in it. -/
theorem verbatim_of_unescape? (cs text : List Char)
    (h : unescape? false .outside cs = some text) (hlength : cs.length ≤ text.length) :
    text = cs ∧ ∀ c ∈ cs, c ≠ '\\' ∧ isPrintable c = true := by
  induction cs generalizing text with
  | nil => exact ⟨(Option.some.inj h).symm, fun c hc => absurd hc List.not_mem_nil⟩
  | cons c rest ih =>
      rw [unescape?, Bool.false_and, Bool.or_false] at h
      split at h
      · -- Behind the backslash there are too few characters left.
        have hshort := length_unescape? false .begun rest text h
        rw [List.length_cons] at hlength
        omega
      · next hc =>
        split at h
        · next hprintable =>
          rcases Option.map_eq_some_iff.mp h with ⟨tail, htail, rfl⟩
          rcases ih tail htail (Nat.le_of_succ_le_succ hlength) with ⟨rfl, hrest⟩
          exact ⟨rfl, List.forall_mem_cons.mpr ⟨⟨hc, hprintable⟩, hrest⟩⟩
        · exact nomatch h

/-- Characters that need no escape come out as they are. -/
theorem unescape?_of_verbatim (cs : List Char) (h : Verbatim cs) :
    unescape? false .outside cs = some cs := by
  induction cs with
  | nil => rfl
  | cons c rest ih =>
      rcases List.forall_mem_cons.mp h with ⟨⟨_, hc, hprintable⟩, hrest⟩
      rw [unescape?, if_neg hc, hprintable, Bool.true_or, if_pos rfl, ih hrest, Option.map_some]

/-- What is cut off at a quote is what stands in front of it. -/
theorem cutLine?_eq_some (quote : Char) (escapes escaped : Bool) (cs body rest : List Char)
    (h : cutLine? quote escapes escaped cs = some (body, rest)) : cs = body ++ quote :: rest := by
  induction cs generalizing escaped body with
  | nil => exact nomatch h
  | cons c tail ih =>
      rw [cutLine?] at h
      split at h
      · next hc =>
        rw [Option.some.injEq, Prod.mk.injEq] at h
        rw [← h.1, ← h.2, hc.1, List.nil_append]
      · -- The character is not the end, whether it is escaped or not.
        rcases Option.map_eq_some_iff.mp h with ⟨⟨front, behind⟩, hfront, heq⟩
        rw [Prod.mk.injEq] at heq
        rw [← heq.1, List.cons_append, ← ih _ front (heq.2 ▸ hfront)]

/-- Without a backslash the first quote is the end. -/
theorem not_mem_of_cutLine? (quote : Char) (cs body rest : List Char)
    (h : cutLine? quote true false cs = some (body, rest)) (hplain : '\\' ∉ body) :
    quote ∉ body := by
  induction cs generalizing body with
  | nil => exact nomatch h
  | cons c tail ih =>
      rw [cutLine?] at h
      split at h
      · rw [Option.some.injEq, Prod.mk.injEq] at h
        rw [← h.1]
        exact List.not_mem_nil
      · next hc =>
        rcases Option.map_eq_some_iff.mp h with ⟨⟨front, behind⟩, hfront, heq⟩
        rw [Prod.mk.injEq] at heq
        rw [← heq.1, List.mem_cons, not_or] at hplain
        -- The character is no backslash, so nothing behind it is escaped.
        have hescaped : (true && decide (c = '\\') && !false) = false := by
          rw [decide_eq_false fun heq => hplain.1 heq.symm]
          rfl
        rw [hescaped] at hfront
        rw [← heq.1, List.mem_cons, not_or]
        exact ⟨fun hquote => hc ⟨hquote.symm, rfl⟩, ih front (heq.2 ▸ hfront) hplain.2⟩

/-- Characters that need no escape are cut off at the quote behind them. -/
theorem cutLine?_of_verbatim (cs rest : List Char) (h : Verbatim cs) :
    cutLine? '"' true false (cs ++ '"' :: rest) = some (cs, rest) := by
  induction cs with
  | nil => rfl
  | cons c tail ih =>
      rcases List.forall_mem_cons.mp h with ⟨⟨hquote, hc, _⟩, htail⟩
      have hescaped : (true && decide (c = '\\') && !false) = false := by
        rw [decide_eq_false hc]
        rfl
      rw [List.cons_append, cutLine?, if_neg fun hend => hquote hend.1, hescaped, ih htail]
      rfl

/-- Three quotes at the end are not part of the text. -/
theorem length_cutLines? (quote : Char) (escapes escaped : Bool) (cs body rest : List Char)
    (h : cutLines? quote escapes escaped cs = some (body, rest)) :
    body.length + 3 ≤ cs.length := by
  induction cs generalizing escaped body with
  | nil => exact nomatch h
  | cons c tail ih =>
      have hpush : ∀ next, push c (cutLines? quote escapes next tail) = some (body, rest) →
          body.length + 3 ≤ (c :: tail).length := by
        intro next hnext
        rcases Option.map_eq_some_iff.mp hnext with ⟨⟨front, behind⟩, hfront, heq⟩
        rw [Prod.mk.injEq] at heq
        have hrest := ih next front (heq.2 ▸ hfront)
        rw [← heq.1, List.length_cons, List.length_cons]
        omega
      unfold cutLines? at h
      simp only at h
      split at h
      · split at h
        · next b a behind =>
          split at h
          · -- Up to two quotes more belong to the text.
            rw [Option.some.injEq, Prod.mk.injEq] at h
            have hextra := (List.takeWhile_prefix (· = quote) (l := behind.take 2)).length_le
            rw [h.1] at hextra
            have htake := List.length_take_le' 2 behind
            simp only [List.length_cons]
            omega
          · exact hpush _ h
        · exact hpush _ h
      · exact hpush _ h

theorem length_dropFirstBreak (cs : List Char) : (dropFirstBreak cs).length ≤ cs.length := by
  unfold dropFirstBreak newline?
  split
  · exact Nat.le_succ _
  · exact Nat.le_succ_of_le (Nat.le_succ _)
  · exact Nat.le_refl _

/-- A text between three quotes lacks them. -/
theorem length_text?_lines (cs text rest : List Char)
    (h : text? ('"' :: '"' :: '"' :: cs) = some (String.ofList text, rest)) :
    text.length + 3 ≤ cs.length := by
  unfold text? at h
  simp only [Option.bind_eq_bind, Option.bind_eq_some_iff] at h
  rcases h with ⟨⟨body, behind⟩, hcut, h⟩
  split at h
  · rcases Option.bind_eq_some_iff.mp h with ⟨read, hread, h⟩
    rw [Option.pure_def, Option.some.injEq, Prod.mk.injEq, String.ofList_inj] at h
    have hbody := length_cutLines? _ _ _ _ body behind hcut
    have htext := length_unescape? true .outside body read hread
    have hbreak := length_dropFirstBreak cs
    -- What is cut off has three quotes behind it, and escapes only get shorter.
    rw [← h.1]
    omega
  · exact nomatch h

/-- A text on one line comes out as it was written if it needs no escape. -/
theorem lineText?_of_verbatim (cs rest : List Char) (h : Verbatim cs) :
    lineText? ('"' :: (cs ++ '"' :: rest)) = some (String.ofList cs, rest) := by
  simp only [lineText?, cutLine?_of_verbatim cs rest h, Option.bind_eq_bind, Option.bind_some,
    unescape?_of_verbatim cs h, Option.pure_def]

/-- A text on one line comes out as it was written only if it needs no escape. -/
theorem verbatim_of_lineText? (cs rest : List Char)
    (h : lineText? ('"' :: (cs ++ ['"', '\n'])) = some (String.ofList cs, rest)) :
    Verbatim cs := by
  simp only [lineText?, Option.bind_eq_bind, Option.bind_eq_some_iff] at h
  rcases h with ⟨⟨body, behind⟩, hcut, read, hread, h⟩
  rw [Option.pure_def, Option.some.injEq, Prod.mk.injEq, String.ofList_inj] at h
  rw [h.1] at hread
  have hsplit := cutLine?_eq_some '"' true false _ body behind hcut
  have hlength := length_unescape? false .outside body cs hread
  -- The quote that ends the text is the one behind it, not a later one.
  have hbody : body = cs := by
    rcases List.append_eq_append_iff.mp hsplit with ⟨more, hmore, hend⟩ | ⟨less, hless, _⟩
    · cases more with
      | nil => rw [hmore, List.append_nil]
      | cons c more =>
          have hlate : '"' ∈ ['\n'] := by
            rw [(List.cons.inj hend).2]
            exact List.mem_append_right more List.mem_cons_self
          exact absurd hlate (by decide)
    · rw [hless, List.length_append] at hlength
      have hnil : less = [] := List.eq_nil_of_length_eq_zero (by omega)
      rw [hless, hnil, List.append_nil]
  rw [hbody] at hread hcut
  have hplain := (verbatim_of_unescape? cs cs hread (Nat.le_refl _)).2
  have hquote := not_mem_of_cutLine? '"' _ cs behind hcut fun hslash => (hplain _ hslash).1 rfl
  exact fun c hc => ⟨fun heq => hquote (heq ▸ hc), hplain c hc⟩

/-- Behind a quote that no two others follow, a text ends on its line. -/
theorem text?_eq_lineText? (cs : List Char) (h : ∀ tail, cs ≠ '"' :: '"' :: tail) :
    text? ('"' :: cs) = lineText? ('"' :: cs) := by
  unfold text?
  split
  · next tail heq => exact absurd (List.cons.inj heq).2 (h tail)
  · next heq => exact absurd (List.cons.inj heq).1 (by decide)
  · rfl

/-- A text at the end of a line comes out as it was written if and only if it needs
    no escape, and what follows is then the end of the line. -/
theorem text?_eq_self_iff (cs rest : List Char) :
    text? ('"' :: (cs ++ ['"', '\n'])) = some (String.ofList cs, rest) ↔
      Verbatim cs ∧ rest = ['\n'] := by
  constructor
  · intro h
    -- A text between three quotes would come out shorter than it is.
    have hline : ∀ tail, cs ++ ['"', '\n'] ≠ '"' :: '"' :: tail := by
      intro tail htail
      rw [htail] at h
      have hshort := length_text?_lines tail cs rest h
      have hlength := congrArg List.length htail
      simp only [List.length_append, List.length_cons, List.length_nil] at hlength
      omega
    rw [text?_eq_lineText? _ hline] at h
    have hcs := verbatim_of_lineText? cs rest h
    refine ⟨hcs, ?_⟩
    rw [lineText?_of_verbatim cs ['\n'] hcs, Option.some.injEq, Prod.mk.injEq] at h
    exact h.2.symm
  · rintro ⟨h, rfl⟩
    rw [text?_eq_lineText?, lineText?_of_verbatim cs ['\n'] h]
    intro tail htail
    cases cs with
    | nil => exact absurd (List.cons.inj (List.cons.inj htail).2).1 (by decide)
    | cons c cs => exact (List.forall_mem_cons.mp h).1.1 (List.cons.inj htail).1

-- A quote, a backslash and a line break have to be escaped.
example : Verbatim "a key 'with\ttabs' $\x7b\x7d".toList ∧ ¬Verbatim "\"".toList ∧
    ¬Verbatim "\\".toList ∧ ¬Verbatim "\n".toList := by
  decide

end Toml

end TestbedReport
