/-!
# Splitting

Texts in parts between separators, as in queries, paths, names and addresses.

## Main definitions

* `splitOn`: The pieces between separators.

## Theorems

* `splitOn_ne_nil`: There is at least one piece.
* `splitOn_of_not_mem`: Without a separator the whole is the one piece.
* `splitOn_append_cons`: A separator cuts a text in two.
* `splitOn_append_of_not_mem`: What has no separator belongs to the last piece.
* `mem_of_mem_splitOn`: A piece has no separator and nothing of its own.
* `flatMap_splitOn`: The pieces, each behind a separator, are the text behind one.
* `splitOn_of_flatMap`: Pieces without separators are split as they were put together.
* `takeWhile_append_mark`, `dropWhile_append_mark`: A text cut at the first of a mark.
* `behindLast_append`: A text cut at the last of a mark.
-/

namespace TestbedReport

namespace Text

/-- The pieces between separators, at least one. -/
def splitOn (separator : Char) : List Char → List (List Char)
  | [] => [[]]
  | c :: rest =>
    match splitOn separator rest with
    | [] => [[c]]
    | piece :: pieces => if c = separator then [] :: piece :: pieces else (c :: piece) :: pieces

theorem splitOn_ne_nil (separator : Char) (cs : List Char) : splitOn separator cs ≠ [] := by
  induction cs with
  | nil => simp [splitOn]
  | cons c rest ih =>
    unfold splitOn
    split
    · simp
    · split <;> simp

/-- Without a separator the whole is the one piece. -/
theorem splitOn_of_not_mem (separator : Char) (cs : List Char) (h : separator ∉ cs) :
    splitOn separator cs = [cs] := by
  induction cs with
  | nil => rfl
  | cons c rest ih =>
    rw [List.mem_cons, not_or] at h
    have hc : c ≠ separator := fun hc => h.1 hc.symm
    rw [splitOn, ih h.2]
    simp only [if_neg hc]

/-- A separator cuts a text in two, and each half is split by itself. -/
theorem splitOn_append_cons (separator : Char) (first second : List Char) :
    splitOn separator (first ++ separator :: second) =
      splitOn separator first ++ splitOn separator second := by
  have hcut : ∀ cs, splitOn separator (separator :: cs) = [] :: splitOn separator cs := by
    intro cs
    rw [splitOn]
    cases hpieces : splitOn separator cs with
    | nil => exact absurd hpieces (splitOn_ne_nil separator cs)
    | cons piece pieces => simp only [if_true]
  induction first with
  | nil => rw [List.nil_append, hcut]; rfl
  | cons c rest ih =>
    rw [List.cons_append, splitOn, ih, splitOn]
    -- The piece that is open at `c` takes it, unless it is a separator.
    cases hpieces : splitOn separator rest with
    | nil => exact absurd hpieces (splitOn_ne_nil separator rest)
    | cons piece pieces =>
      simp only [List.cons_append]
      split <;> rfl

/-- What has no separator belongs to the last piece of what is before it. -/
theorem splitOn_append_of_not_mem (separator : Char) (cs more : List Char) (h : separator ∉ more) :
    ∃ pieces last, splitOn separator cs = pieces ++ [last] ∧
      splitOn separator (cs ++ more) = pieces ++ [last ++ more] := by
  induction cs with
  | nil => exact ⟨[], [], rfl, splitOn_of_not_mem separator more h⟩
  | cons c rest ih =>
    rcases ih with ⟨pieces, last, hrest, hmore⟩
    rw [List.cons_append, splitOn, splitOn, hrest, hmore]
    -- The last piece may be the first one, and then `c` may belong to it.
    cases pieces with
    | nil =>
      by_cases hc : c = separator
      · exact ⟨[[]], last, by simp only [List.nil_append, if_pos hc]; rfl,
          by simp only [List.nil_append, if_pos hc]; rfl⟩
      · exact ⟨[], c :: last, by simp only [List.nil_append, if_neg hc],
          by simp only [List.nil_append, if_neg hc, List.cons_append]⟩
    | cons piece pieces =>
      by_cases hc : c = separator
      · exact ⟨[] :: piece :: pieces, last, by simp only [List.cons_append, if_pos hc],
          by simp only [List.cons_append, if_pos hc]⟩
      · exact ⟨(c :: piece) :: pieces, last, by simp only [List.cons_append, if_neg hc],
          by simp only [List.cons_append, if_neg hc]⟩

/-- A piece has no separator and nothing that is not in the text. -/
theorem mem_of_mem_splitOn {separator c : Char} {cs piece : List Char}
    (h : piece ∈ splitOn separator cs) (hc : c ∈ piece) : c ∈ cs ∧ c ≠ separator := by
  induction cs generalizing piece with
  | nil =>
    rw [splitOn, List.mem_singleton] at h
    rw [h] at hc
    exact nomatch hc
  | cons first rest ih =>
    have hlater : ∀ p ∈ splitOn separator rest, c ∈ p → c ∈ first :: rest ∧ c ≠ separator :=
      fun p hp hcp => ⟨List.mem_cons_of_mem _ (ih hp hcp).1, (ih hp hcp).2⟩
    rw [splitOn] at h
    cases hpieces : splitOn separator rest with
    | nil => exact absurd hpieces (splitOn_ne_nil separator rest)
    | cons head tail =>
      rw [hpieces] at h hlater
      -- A separator begins a piece, any other character belongs to the first one.
      by_cases hfirst : first = separator
      · simp only [if_pos hfirst] at h
        rcases List.mem_cons.mp h with hnil | hin
        · rw [hnil] at hc
          exact nomatch hc
        · exact hlater piece hin hc
      · simp only [if_neg hfirst] at h
        rcases List.mem_cons.mp h with hhead | hin
        · rw [hhead] at hc
          rcases List.mem_cons.mp hc with hcfirst | hchead
          · rw [hcfirst]
            exact ⟨List.mem_cons_self, hfirst⟩
          · exact hlater head List.mem_cons_self hchead
        · exact hlater piece (List.mem_cons_of_mem _ hin) hc

/-- The pieces, each behind a separator, are the text behind one. -/
theorem flatMap_splitOn (separator : Char) (cs : List Char) :
    (splitOn separator cs).flatMap (separator :: ·) = separator :: cs := by
  induction cs with
  | nil => rfl
  | cons c rest ih =>
    rw [splitOn]
    cases hpieces : splitOn separator rest with
    | nil => exact absurd hpieces (splitOn_ne_nil separator rest)
    | cons piece pieces =>
      rw [hpieces] at ih
      -- The separator in front of the first piece is the new one.
      by_cases hc : c = separator
      · simp only [if_pos hc, List.flatMap_cons] at ih ⊢
        rw [List.cons_append, List.nil_append, ih, hc]
      · simp only [if_neg hc, List.flatMap_cons, List.cons_append, List.cons.injEq,
          true_and] at ih ⊢
        exact ih

/-- Pieces without separators are split as they were put together. -/
theorem splitOn_of_flatMap {separator : Char} {pieces : List (List Char)} {cs : List Char}
    (hpieces : pieces ≠ []) (hnone : ∀ piece ∈ pieces, separator ∉ piece)
    (h : pieces.flatMap (separator :: ·) = separator :: cs) : splitOn separator cs = pieces := by
  induction pieces generalizing cs with
  | nil => exact absurd rfl hpieces
  | cons piece rest ih =>
    have hpiece := hnone piece List.mem_cons_self
    rw [List.flatMap_cons, List.cons_append, List.cons.injEq] at h
    -- The first piece ends at the separator of the next one, if there is one.
    cases rest with
    | nil =>
      rw [List.flatMap_nil, List.append_nil] at h
      rw [← h.2, splitOn_of_not_mem _ _ hpiece]
    | cons next tail =>
      have hrest : splitOn separator (next ++ tail.flatMap (separator :: ·)) = next :: tail :=
        ih (List.cons_ne_nil _ _)
          (fun later hlater => hnone later (List.mem_cons_of_mem _ hlater)) List.flatMap_cons
      rw [← h.2, List.flatMap_cons, List.cons_append, splitOn_append_cons, hrest,
        splitOn_of_not_mem _ _ hpiece]
      rfl

section Marks

variable {mark : Char} {front back : List Char}

theorem forall_ne_of_not_mem (h : mark ∉ front) : ∀ c ∈ front, decide (c ≠ mark) = true :=
  fun _ hc => decide_eq_true fun heq => h (heq ▸ hc)

/-- What has no mark and is in front of one, or is the whole, is in front of the first. -/
theorem takeWhile_append_mark (hfront : mark ∉ front)
    (hback : back = [] ∨ ∃ rest, back = mark :: rest) :
    (front ++ back).takeWhile (· ≠ mark) = front := by
  have hstop : back.takeWhile (· ≠ mark) = [] := by
    rcases hback with rfl | ⟨rest, rfl⟩
    · rfl
    · rw [List.takeWhile_cons_of_neg (by simp)]
  rw [List.takeWhile_append_of_pos (forall_ne_of_not_mem hfront), hstop, List.append_nil]

/-- What is behind it begins with the mark, if anything is. -/
theorem dropWhile_append_mark (hfront : mark ∉ front)
    (hback : back = [] ∨ ∃ rest, back = mark :: rest) :
    (front ++ back).dropWhile (· ≠ mark) = back := by
  rw [List.dropWhile_append_of_pos (forall_ne_of_not_mem hfront)]
  rcases hback with rfl | ⟨rest, rfl⟩
  · rfl
  · rw [List.dropWhile_cons_of_neg (by simp)]

/-- What has no mark and is behind one, or is the whole, is behind the last. -/
theorem behindLast_append (hback : mark ∉ back)
    (hfront : front = [] ∨ ∃ before, front = before ++ [mark]) :
    ((front ++ back).reverse.takeWhile (· ≠ mark)).reverse = back := by
  have hnone : mark ∉ back.reverse := fun hmem => hback (List.mem_reverse.mp hmem)
  have hstart : front.reverse = [] ∨ ∃ rest, front.reverse = mark :: rest := by
    rcases hfront with rfl | ⟨before, rfl⟩
    · exact .inl rfl
    · exact .inr ⟨before.reverse, List.reverse_concat⟩
  rw [List.reverse_append, takeWhile_append_mark hnone hstart, List.reverse_reverse]

end Marks

end Text

end TestbedReport
