import Mathlib.Data.List.Sort
import Mathlib.Tactic.ByContra
import Mathlib.Tactic.Ring
import TestbedReport.Text.Split
import TestbedReport.Url.Punycode

/-!
# Labels in Punycode Are Read Back

A label is written by going over it once for each of its characters outside of ASCII,
from the least to the greatest, and it is read by putting these characters into the
ASCII ones, in the same order. The two are in step: whenever a group has been written,
a reader of what is written so far has all smaller characters and those of the same
value up to the place the writer has come to.

In between the writer counts, and what it counts is how far the reader is behind. The
reader will find the sum of its own position and the distance in the next group, and
divide it by the number of places, which is one more than it has characters. So the
sum has to be that many for every value since its last one, and one for every
character it has in front of the place. This is kept at every character and from one
value to the next, and it is the whole of `InStep`.

## Main definitions

* `Punycode.Reached`: What a reader has after some groups.
* `Punycode.ReadsTo`: Written groups bring a reader somewhere.
* `Punycode.insertOne`, `Punycode.insertValue`: What the writer does at one character,
  and for one value.
* `Punycode.InStep`: The writer at a place of the label, and a reader of what it has
  written.
* `Punycode.groupsOf`: The groups of a label.

## Theorems

* `Punycode.readGroup?_writeGroup`: A distance is read back.
* `Punycode.ReadsTo.group`: One group more puts in one character more.
* `Punycode.InStep.insertOne`: The two stay in step at every character.
* `Punycode.InStep.insertValues`: They stay in step from one value to the next.
* `Punycode.decode?_encode`: A label is read back.
* `Punycode.mem_encode`, `Punycode.mem_of_decode?`: What labels in Punycode are made of.
-/

namespace TestbedReport

namespace Punycode

section Groups

theorem threshold_bounds (k bias : Nat) : 1 ≤ threshold k bias ∧ threshold k bias ≤ 26 := by
  unfold threshold
  split
  · omega
  · split <;> omega

theorem digitValue?_digit {value : Nat} (h : value < 36) :
    digitValue? (digit value) = some value := by
  have hall : ∀ v < 36, digitValue? (digit v) = some v := by decide
  exact hall value h

theorem readGroup?_digit (bias k weight sum : Nat) {value : Nat} (h : value < 36)
    (rest : List Char) :
    readGroup? bias (digit value :: rest) k weight sum =
      if value < threshold k bias then some (sum + value * weight, rest)
      else readGroup? bias rest (k + 36) (weight * (36 - threshold k bias))
        (sum + value * weight) := by
  simp only [readGroup?, digitValue?_digit h, Option.bind_some]

/-- A distance is read back behind any sum, with the weight its first digit has there. -/
theorem readGroup?_writeGroup (bias steps q k weight sum : Nat) (rest : List Char)
    (hsteps : q ≤ steps) :
    readGroup? bias (writeGroup bias steps q k ++ rest) k weight sum =
      some (sum + q * weight, rest) := by
  -- Every step divides what is left of the distance, and the weight grows by as much.
  induction steps generalizing q k weight sum with
  | zero =>
      have hbounds := threshold_bounds k bias
      rw [Nat.le_zero.mp hsteps, writeGroup, List.cons_append, List.nil_append,
        readGroup?_digit _ _ _ _ (by omega), if_pos (by omega)]
  | succ steps ih =>
      have hbounds := threshold_bounds k bias
      unfold writeGroup
      by_cases hlast : q < threshold k bias
      · rw [if_pos hlast, List.cons_append, List.nil_append, readGroup?_digit _ _ _ _ (by omega),
          if_pos hlast]
      · have hdigit : (q - threshold k bias) % (36 - threshold k bias) < 36 - threshold k bias :=
          Nat.mod_lt _ (by omega)
        have hleft : (q - threshold k bias) / (36 - threshold k bias) ≤ steps :=
          Nat.le_trans (Nat.div_le_self _ _) (by omega)
        have hsplit := Nat.mod_add_div (q - threshold k bias) (36 - threshold k bias)
        rw [if_neg hlast, List.cons_append, readGroup?_digit _ _ _ _ (by omega),
          if_neg (by omega), ih _ _ _ _ hleft]
        generalize (q - threshold k bias) % (36 - threshold k bias) = digit at *
        generalize (q - threshold k bias) / (36 - threshold k bias) = left at *
        have hq : threshold k bias + digit + left * (36 - threshold k bias) = q := by
          rw [Nat.mul_comm left]
          omega
        have hsum : sum + (threshold k bias + digit) * weight +
            left * (weight * (36 - threshold k bias)) = sum + q * weight := by
          rw [← hq]
          ring
        rw [hsum]

theorem mem_writeGroup {bias steps q k : Nat} {c : Char} (hsteps : q ≤ steps)
    (hc : c ∈ writeGroup bias steps q k) : ∃ value < 36, c = digit value := by
  induction steps generalizing q k with
  | zero =>
      rw [writeGroup, List.mem_singleton] at hc
      exact ⟨q, by omega, hc⟩
  | succ steps ih =>
      have hbounds := threshold_bounds k bias
      unfold writeGroup at hc
      -- A digit below the threshold ends the group.
      by_cases hlast : q < threshold k bias
      · rw [if_pos hlast, List.mem_singleton] at hc
        exact ⟨q, by omega, hc⟩
      · have hdigit : (q - threshold k bias) % (36 - threshold k bias) < 36 - threshold k bias :=
          Nat.mod_lt _ (by omega)
        have hleft : (q - threshold k bias) / (36 - threshold k bias) ≤ steps :=
          Nat.le_trans (Nat.div_le_self _ _) (by omega)
        rw [if_neg hlast, List.mem_cons] at hc
        rcases hc with hfirst | hrest
        · exact ⟨_, by omega, hfirst⟩
        · exact ih hleft hrest

theorem writeGroup_ne_nil (bias steps q k : Nat) : writeGroup bias steps q k ≠ [] := by
  cases steps with
  | zero => exact List.cons_ne_nil _ _
  | succ steps =>
      unfold writeGroup
      simp only
      split <;> exact List.cons_ne_nil _ _

end Groups

section Readers

/-- A reader with a step left takes a group, if there is anything to read. -/
theorem insertGroups?_succ (steps : Nat) {input : List Char} (hinput : input ≠ [])
    (label : List Char) (value position bias : Nat) :
    insertGroups? (steps + 1) input label value position bias =
      (readGroup? bias input 36 1 position).bind fun group =>
        if (value + group.1 / (label.length + 1)).isValidChar then
          insertGroups? steps group.2 (label.insertIdx (group.1 % (label.length + 1))
            (Char.ofNat (value + group.1 / (label.length + 1))))
            (value + group.1 / (label.length + 1)) (group.1 % (label.length + 1) + 1)
            (adapt (group.1 - position) (label.length + 1) (position = 0))
        else none := by
  cases input with
  | nil => exact absurd rfl hinput
  | cons c rest => rfl

/-- What a reader has after some groups: the characters so far, the value of the last
    one it has put in, the position behind it, and the bias for the next group. -/
structure Reached where
  label : List Char
  value : Nat
  position : Nat
  bias : Nat

/-- Written groups bring a reader of the ASCII characters somewhere, whatever follows
    them. They are no more groups than characters, and digits only. -/
def ReadsTo (basic written : List Char) (r : Reached) : Prop :=
  (∀ c ∈ written, ∃ value < 36, c = digit value) ∧
    ∃ groups ≤ written.length, ∀ steps rest,
      insertGroups? (groups + steps) (written ++ rest) basic 0x80 0 72 =
        insertGroups? steps rest r.label r.value r.position r.bias

theorem readsTo_nil (basic : List Char) : ReadsTo basic [] ⟨basic, 0x80, 0, 72⟩ := by
  refine ⟨fun c hc => absurd hc List.not_mem_nil, 0, Nat.le_refl 0, fun steps rest => ?_⟩
  rw [Nat.zero_add, List.nil_append]

/-- **One group more** puts in one character more: the one whose value and place the sum
    of position and distance comes to. -/
theorem ReadsTo.group {basic written : List Char} {r : Reached} (h : ReadsTo basic written r)
    {c : Char} {distance place : Nat} (hvalue : r.value ≤ c.toNat) (hplace : place ≤ r.label.length)
    (hsum : r.position + distance = (c.toNat - r.value) * (r.label.length + 1) + place) :
    ReadsTo basic (written ++ writeGroup r.bias distance distance 36)
      ⟨r.label.insertIdx place c, c.toNat, place + 1,
        adapt distance (r.label.length + 1) (r.position = 0)⟩ := by
  rcases h with ⟨hdigits, groups, hgroups, hreads⟩
  refine ⟨fun d hd => ?_, groups + 1, ?_, fun steps rest => ?_⟩
  · rcases List.mem_append.mp hd with hbefore | hgroup
    · exact hdigits d hbefore
    · exact mem_writeGroup (Nat.le_refl _) hgroup
  · have hone := List.length_pos_iff.mpr (writeGroup_ne_nil r.bias distance distance 36)
    rw [List.length_append]
    omega
  · -- The sum is taken apart into the value and the place, as the reader does it.
    have hquotient : (r.position + distance) / (r.label.length + 1) = c.toNat - r.value := by
      rw [hsum, Nat.mul_comm, Nat.mul_add_div (by omega), Nat.div_eq_of_lt (by omega), Nat.add_zero]
    have hrest : (r.position + distance) % (r.label.length + 1) = place := by
      rw [hsum, Nat.mul_comm, Nat.mul_add_mod, Nat.mod_eq_of_lt (by omega)]
    have hnext : r.value + (c.toNat - r.value) = c.toNat := by omega
    have hinput : writeGroup r.bias distance distance 36 ++ rest ≠ [] := by
      simp [writeGroup_ne_nil]
    have hread := readGroup?_writeGroup r.bias distance distance 36 1 r.position rest
      (Nat.le_refl _)
    rw [Nat.mul_one] at hread
    have hvalid : c.toNat.isValidChar := c.valid
    rw [Nat.add_assoc, Nat.add_comm 1 steps, List.append_assoc, hreads,
      insertGroups?_succ _ hinput, hread]
    simp only [Option.bind_some, hquotient, hrest, hnext, if_pos hvalid, Char.ofNat_toNat,
      Nat.add_sub_cancel_left]

end Readers

section Writers

/-- What the writer does at one character. -/
def insertOne (basicCount current : Nat) (state : Insertion) (c : Char) : Insertion :=
  if c.toNat < current then { state with delta := state.delta + 1 }
  else if c.toNat = current then
    { written := state.written ++ writeGroup state.bias state.delta state.delta 36
      delta := 0
      bias := adapt state.delta (state.count + 1) (state.count = basicCount)
      count := state.count + 1 }
  else state

/-- The writer at a place of the label, going over it for one value, and a reader of
    what it has written. The reader has what is before the place up to that value, and
    what is behind it below that value. -/
structure InStep (basic : List Char) (current : Nat) (passed ahead : List Char)
    (s : Insertion) (r : Reached) : Prop where
  reads : ReadsTo basic s.written r
  bias : s.bias = r.bias
  count : s.count = r.label.length
  label : r.label = passed.filter (·.toNat ≤ current) ++ ahead.filter (·.toNat < current)
  value : r.value ≤ current
  behind : r.position + s.delta = (current - r.value) * (r.label.length + 1) +
    (passed.filter (·.toNat ≤ current)).length
  least : basic.length ≤ r.label.length
  first : r.position = 0 ↔ r.label.length = basic.length

theorem insertIdx_length_append (front back : List Char) (c : Char) :
    (front ++ back).insertIdx front.length c = front ++ c :: back := by
  induction front with
  | nil => rfl
  | cons d front ih =>
      rw [List.cons_append, List.length_cons, List.insertIdx_succ_cons, ih, List.cons_append]

namespace InStep

variable {basic passed ahead label : List Char} {current next : Nat} {s : Insertion} {r : Reached}

theorem filter_concat (c : Char) : (passed ++ [c]).filter (·.toNat ≤ current) =
    passed.filter (·.toNat ≤ current) ++ if c.toNat ≤ current then [c] else [] := by
  rw [List.filter_append, List.filter_singleton]
  by_cases hc : c.toNat ≤ current <;> simp [hc]

/-- A smaller character is one that the reader has already, so it is one more in front of
    the place. -/
theorem countSmaller {c : Char} (h : InStep basic current passed (c :: ahead) s r)
    (hless : c.toNat < current) :
    InStep basic current (passed ++ [c]) ahead { s with delta := s.delta + 1 } r := by
  have hpassed : (passed ++ [c]).filter (·.toNat ≤ current) =
      passed.filter (·.toNat ≤ current) ++ [c] := by
    rw [filter_concat, if_pos hless.le]
  have hbehind := h.behind
  -- Only the count of what is in front changes, by one, as the distance does.
  refine ⟨h.reads, h.bias, h.count, ?_, h.value, ?_, h.least, h.first⟩
  · rw [h.label, hpassed, List.filter_cons_of_pos (by simpa using hless), List.append_assoc]
    rfl
  · rw [hpassed, List.length_append, List.length_singleton]
    simp only
    omega

/-- A larger character is for later. -/
theorem passLarger {c : Char} (h : InStep basic current passed (c :: ahead) s r)
    (hlarger : current < c.toNat) : InStep basic current (passed ++ [c]) ahead s r := by
  have hpassed : (passed ++ [c]).filter (·.toNat ≤ current) =
      passed.filter (·.toNat ≤ current) := by
    rw [filter_concat, if_neg (Nat.not_le.mpr hlarger), List.append_nil]
  refine ⟨h.reads, h.bias, h.count, ?_, h.value, ?_, h.least, h.first⟩
  · rw [h.label, hpassed, List.filter_cons_of_neg (by simpa using hlarger.le)]
  · rw [hpassed]
    exact h.behind

/-- For an equal character a group is written, and the reader puts it in at the place. -/
theorem writeEqual {c : Char} (h : InStep basic current passed (c :: ahead) s r)
    (hequal : c.toNat = current) :
    ∃ after, InStep basic current (passed ++ [c]) ahead
      { written := s.written ++ writeGroup s.bias s.delta s.delta 36
        delta := 0
        bias := adapt s.delta (s.count + 1) (s.count = basic.length)
        count := s.count + 1 } after := by
  have hpassed : (passed ++ [c]).filter (·.toNat ≤ current) =
      passed.filter (·.toNat ≤ current) ++ [c] := by
    rw [filter_concat, if_pos hequal.le]
  have hlabel : r.label =
      passed.filter (·.toNat ≤ current) ++ ahead.filter (·.toNat < current) := by
    rw [h.label, List.filter_cons_of_neg (by simpa using hequal.ge)]
  have hplace : (passed.filter (·.toNat ≤ current)).length ≤ r.label.length := by
    rw [hlabel, List.length_append]
    omega
  have hinserted : r.label.insertIdx (passed.filter (·.toNat ≤ current)).length c =
      passed.filter (·.toNat ≤ current) ++ c :: ahead.filter (·.toNat < current) := by
    rw [hlabel, insertIdx_length_append]
  have hlength : (r.label.insertIdx (passed.filter (·.toNat ≤ current)).length c).length =
      r.label.length + 1 := List.length_insertIdx_of_le_length hplace c
  have hleast := h.least
  have hfirst := h.first
  -- Both take the group for the first one, or neither does.
  have hstart : decide (s.count = basic.length) = decide (r.position = 0) :=
    decide_eq_decide.mpr (by rw [h.count, hfirst])
  have hreads := h.reads.group (hequal ▸ h.value) hplace (by rw [hequal]; exact h.behind)
  rw [← h.bias] at hreads
  refine ⟨_, hreads, ?_, ?_, ?_, hequal.le, ?_, ?_, ?_⟩
  · simp only
    rw [hstart, h.count]
  · simp only
    rw [hlength, h.count]
  · simp only
    rw [hinserted, hpassed, List.append_assoc]
    rfl
  · simp only
    rw [hequal, hpassed, List.length_append, List.length_singleton, Nat.sub_self, Nat.zero_mul]
    omega
  · simp only
    omega
  · simp only
    omega

/-- **At every character** they stay in step. -/
theorem insertOne {c : Char} (h : InStep basic current passed (c :: ahead) s r) :
    ∃ after, InStep basic current (passed ++ [c]) ahead
      (Punycode.insertOne basic.length current s c) after := by
  unfold Punycode.insertOne
  by_cases hless : c.toNat < current
  · rw [if_pos hless]
    exact ⟨r, h.countSmaller hless⟩
  · rw [if_neg hless]
    by_cases hequal : c.toNat = current
    · rw [if_pos hequal]
      exact h.writeEqual hequal
    · rw [if_neg hequal]
      exact ⟨r, h.passLarger (by omega)⟩

/-- All characters of the label, for one value. -/
theorem insertAll (h : InStep basic current passed ahead s r) :
    ∃ after, InStep basic current (passed ++ ahead) []
      (Punycode.insertAll basic.length current ahead s) after := by
  induction ahead generalizing passed s r with
  | nil => exact ⟨r, by rw [List.append_nil]; exact h⟩
  | cons c ahead ih =>
      rcases h.insertOne with ⟨between, hbetween⟩
      rw [List.append_cons]
      exact ih hbetween

/-- On the way to the next value in the label nothing is put in. -/
theorem skip (h : InStep basic current [] label s r) (hle : current ≤ next)
    (hnone : ∀ c ∈ label, current ≤ c.toNat → next ≤ c.toNat) :
    InStep basic next [] label
      { s with delta := s.delta + (next - current) * (s.count + 1) } r := by
  have hvalue := h.value
  have hbehind := h.behind
  refine ⟨h.reads, h.bias, h.count, ?_, by omega, ?_, h.least, h.first⟩
  · rw [h.label]
    -- No character is between the two values, so the same ones are smaller.
    have hsame : label.filter (·.toNat < current) = label.filter (·.toNat < next) := by
      refine List.filter_congr fun c hc =>
        decide_eq_decide.mpr ⟨fun hless => by omega, fun hless => ?_⟩
      by_contra hno
      have hlarge := hnone c hc (by omega)
      omega
    rw [hsame]
    rfl
  · have hway : next - r.value = (current - r.value) + (next - current) := by omega
    simp only
    rw [h.count, hway, Nat.add_mul, ← Nat.add_assoc, hbehind]
    simp

/-- Behind the last character the place is in front of the first one again, for the
    value that follows. -/
theorem wrap (h : InStep basic current label [] s r) :
    InStep basic (current + 1) [] label { s with delta := s.delta + 1 } r := by
  have hvalue := h.value
  have hbehind := h.behind
  have hlabel : r.label = label.filter (·.toNat ≤ current) := by
    rw [h.label, List.filter_nil, List.append_nil]
  have hsame : label.filter (·.toNat ≤ current) = label.filter (·.toNat < current + 1) :=
    List.filter_congr fun c _ => decide_eq_decide.mpr Nat.lt_succ_iff.symm
  refine ⟨h.reads, h.bias, h.count, ?_, by omega, ?_, h.least, h.first⟩
  · rw [hlabel, hsame]
    rfl
  · -- One value more is as many places as the reader has characters, and one.
    have hway : current + 1 - r.value = (current - r.value) + 1 := by omega
    rw [hway, Nat.add_mul, Nat.one_mul, ← Nat.add_assoc, hbehind, ← hlabel]
    simp
    omega

end InStep

/-- What the writer does for one value of the label. -/
def insertValue (basicCount : Nat) (label : List Char) (state : Insertion × Nat) (value : Nat) :
    Insertion × Nat :=
  let reached :=
    { state.1 with delta := state.1.delta + (value - state.2) * (state.1.count + 1) }
  let passed := insertAll basicCount value label reached
  ({ passed with delta := passed.delta + 1 }, value + 1)

/-- **From one value to the next** they stay in step, and in the end the reader has
    every character. -/
theorem InStep.insertValues {basic label : List Char} {current : Nat} {s : Insertion} {r : Reached}
    (h : InStep basic current [] label s r) {values : List Nat} (hsorted : values.Pairwise (· < ·))
    (hlater : ∀ value ∈ values, current ≤ value)
    (hall : ∀ c ∈ label, current ≤ c.toNat → c.toNat ∈ values) :
    ∃ last after, InStep basic last [] label
        (values.foldl (insertValue basic.length label) (s, current)).1 after ∧
      ∀ c ∈ label, c.toNat < last := by
  induction values generalizing current s r with
  | nil =>
      refine ⟨current, r, h, fun c hc => ?_⟩
      by_contra hno
      exact List.not_mem_nil (hall c hc (Nat.le_of_not_lt hno))
  | cons value values ih =>
      rw [List.pairwise_cons] at hsorted
      -- No character is between the values, so the way to the next one can be skipped.
      have hskip := h.skip (hlater value List.mem_cons_self) fun c hc hcurrent => by
        rcases List.mem_cons.mp (hall c hc hcurrent) with hfirst | hlast
        · exact Nat.le_of_eq hfirst.symm
        · exact (hsorted.1 _ hlast).le
      rcases hskip.insertAll with ⟨passed, hpassed⟩
      refine ih hpassed.wrap hsorted.2 (fun v hv => hsorted.1 v hv) fun c hc hnext => ?_
      rcases List.mem_cons.mp (hall c hc ((hlater value List.mem_cons_self).trans (by omega)))
        with hfirst | hlast
      · omega
      · exact hlast

end Writers

section Labels

theorem nodup_eraseDups (values : List Nat) : values.eraseDups.Nodup := by
  -- What is left behind the first value is shorter, as its copies are gone.
  induction hlength : values.length using Nat.strong_induction_on generalizing values with
  | _ length ih =>
      cases values with
      | nil => exact List.nodup_nil
      | cons value values =>
          rw [List.eraseDups_cons, List.nodup_cons]
          refine ⟨fun hmem => ?_, ih _ ?_ _ rfl⟩
          · have hkept := List.mem_eraseDups.mp hmem
            simp at hkept
          · have hshort := List.length_filter_le (fun v => !v == value) values
            rw [List.length_cons] at hlength
            omega

/-- The values the writer goes by are those of the characters outside of ASCII, in
    ascending order and each once. -/
theorem values_ascending (label : List Char) :
    (((label.map Char.toNat).filter (0x80 ≤ ·)).eraseDups.mergeSort).Pairwise (· < ·) := by
  have hsorted := List.pairwise_mergeSort' (· ≤ ·)
    ((label.map Char.toNat).filter (0x80 ≤ ·)).eraseDups
  have hnodup : (((label.map Char.toNat).filter (0x80 ≤ ·)).eraseDups.mergeSort).Nodup :=
    (List.mergeSort_perm _ _).nodup_iff.mpr (nodup_eraseDups _)
  exact (hsorted.and hnodup).imp fun ⟨hle, hne⟩ => lt_of_le_of_ne hle hne

theorem mem_values {label : List Char} {value : Nat} :
    value ∈ (((label.map Char.toNat).filter (0x80 ≤ ·)).eraseDups.mergeSort) ↔
      0x80 ≤ value ∧ ∃ c ∈ label, c.toNat = value := by
  rw [List.mem_mergeSort, List.mem_eraseDups, List.mem_filter, List.mem_map, decide_eq_true_iff,
    and_comm]

/-- The digits of a label: the groups behind its ASCII characters. -/
def groupsOf (label : List Char) : List Char :=
  ((((label.map Char.toNat).filter (0x80 ≤ ·)).eraseDups.mergeSort).foldl
    (insertValue (label.filter (·.toNat < 0x80)).length label)
    (⟨[], 0, 72, (label.filter (·.toNat < 0x80)).length⟩, 0x80)).1.written

theorem encode_eq (label : List Char) :
    encode label =
      (if (label.filter (·.toNat < 0x80)).isEmpty then []
        else label.filter (·.toNat < 0x80) ++ ['-']) ++ groupsOf label :=
  rfl

/-- Reading the groups of a label gives the label. -/
theorem readsTo_groupsOf (label : List Char) :
    ∃ r, ReadsTo (label.filter (·.toNat < 0x80)) (groupsOf label) r ∧ r.label = label := by
  have hstart : InStep (label.filter (·.toNat < 0x80)) 0x80 [] label
      ⟨[], 0, 72, (label.filter (·.toNat < 0x80)).length⟩
      ⟨label.filter (·.toNat < 0x80), 0x80, 0, 72⟩ := by
    refine ⟨readsTo_nil _, rfl, rfl, rfl, Nat.le_refl _, ?_, Nat.le_refl _, by simp⟩
    simp
  -- The passes go through all values of the label from the first on.
  rcases hstart.insertValues (values_ascending label) (fun value hvalue => (mem_values.mp hvalue).1)
    (fun c hc hlarge => mem_values.mpr ⟨hlarge, c, hc, rfl⟩) with ⟨last, r, hlast, hall⟩
  refine ⟨r, hlast.reads, ?_⟩
  rw [hlast.label, List.filter_nil, List.nil_append]
  exact List.filter_eq_self.mpr fun c hc => decide_eq_true (hall c hc)

theorem digit_ne_hyphen {value : Nat} (h : value < 36) : digit value ≠ '-' := by
  have hall : ∀ v < 36, digit v ≠ '-' := by decide
  exact hall value h

/-- **A label is read back** from its ASCII form. -/
theorem decode?_encode (label : List Char) : decode? (encode label) = some label := by
  rcases readsTo_groupsOf label with ⟨r, ⟨hdigits, groups, hgroups, hreads⟩, hlabel⟩
  have hhyphen : '-' ∉ groupsOf label := fun hmem => by
    rcases hdigits _ hmem with ⟨value, hvalue, heq⟩
    exact digit_ne_hyphen hvalue heq.symm
  have hread := hreads ((groupsOf label).length - groups) []
  rw [Nat.add_sub_cancel' hgroups, List.append_nil] at hread
  have hdone : insertGroups? (groupsOf label).length (groupsOf label)
      (label.filter (·.toNat < 0x80)) 0x80 0 72 = some label := by
    rw [hread, ← hlabel]
    unfold insertGroups?
    rfl
  have hbasic : (label.filter (·.toNat < 0x80)).all (·.toNat < 0x80) = true :=
    List.all_eq_true.mpr fun c hc => (List.mem_filter.mp hc).2
  rw [encode_eq]
  unfold decode?
  -- Without ASCII characters there is no hyphen in front of the groups.
  by_cases hempty : (label.filter (·.toNat < 0x80)).isEmpty
  · rw [if_pos hempty, List.nil_append]
    have hsplit := Text.behindLast_append hhyphen (Or.inl rfl)
    rw [List.nil_append] at hsplit
    have hnil := List.isEmpty_iff.mp hempty
    simp only [hsplit, Nat.sub_self, Nat.zero_sub, List.take_zero, List.all_nil, if_true]
    rw [← hdone, hnil]
  · rw [if_neg hempty]
    have hsplit := Text.behindLast_append hhyphen
      (Or.inr ⟨label.filter (·.toNat < 0x80), rfl⟩)
    have hfront : (label.filter (·.toNat < 0x80) ++ ['-'] ++ groupsOf label).length -
        (groupsOf label).length - 1 = (label.filter (·.toNat < 0x80)).length := by
      simp only [List.length_append, List.length_singleton]
      omega
    simp only [hsplit, hfront]
    rw [List.append_assoc, List.take_left' rfl, if_pos hbasic, hdone]

/-- The ASCII form has the ASCII characters of the label, hyphens and digits. -/
theorem mem_encode {label : List Char} {c : Char} (hc : c ∈ encode label) :
    (c ∈ label ∧ c.toNat < 0x80) ∨ c = '-' ∨ ∃ value < 36, c = digit value := by
  rcases readsTo_groupsOf label with ⟨r, ⟨hdigits, -⟩, -⟩
  rw [encode_eq, List.mem_append] at hc
  rcases hc with hfront | hgroups
  · -- Without ASCII characters nothing stands in front of the groups.
    by_cases hempty : (label.filter (·.toNat < 0x80)).isEmpty
    · rw [if_pos hempty] at hfront
      exact absurd hfront List.not_mem_nil
    · rw [if_neg hempty, List.mem_append, List.mem_singleton, List.mem_filter,
        decide_eq_true_iff] at hfront
      rcases hfront with hbasic | hhyphen
      · exact .inl hbasic
      · exact .inr (.inl hhyphen)
  · exact .inr (.inr (hdigits c hgroups))

/-- A group is made of digits. -/
theorem readGroup?_eq_some {bias : Nat} {cs rest : List Char} {k weight sum total : Nat}
    (h : readGroup? bias cs k weight sum = some (total, rest)) :
    ∃ front, cs = front ++ rest ∧ ∀ c ∈ front, (digitValue? c).isSome = true := by
  induction cs generalizing k weight sum with
  | nil => exact nomatch h
  | cons c cs ih =>
      rw [readGroup?] at h
      rcases Option.bind_eq_some_iff.mp h with ⟨value, hvalue, hgroup⟩
      have hfirst : (digitValue? c).isSome = true := by rw [hvalue]; rfl
      simp only at hgroup
      split at hgroup
      · cases hgroup
        exact ⟨[c], rfl, fun d hd => by rw [List.mem_singleton.mp hd]; exact hfirst⟩
      · rcases ih hgroup with ⟨front, hfront, hdigits⟩
        exact ⟨c :: front, by rw [hfront, List.cons_append],
          List.forall_mem_cons.mpr ⟨hfirst, hdigits⟩⟩

/-- Groups are made of digits, and no character is lost with them. -/
theorem insertGroups?_eq_some {steps : Nat} {input label whole : List Char}
    {value position bias : Nat} (h : insertGroups? steps input label value position bias =
      some whole) :
    (∀ c ∈ label, c ∈ whole) ∧ ∀ c ∈ input, (digitValue? c).isSome = true := by
  induction steps generalizing input label value position bias with
  | zero =>
      cases input with
      | nil =>
          rw [← Option.some.inj h]
          exact ⟨fun c hc => hc, fun c hc => nomatch hc⟩
      | cons c rest => exact nomatch h
  | succ steps ih =>
      cases input with
      | nil =>
          rw [← Option.some.inj h]
          exact ⟨fun c hc => hc, fun c hc => nomatch hc⟩
      | cons c rest =>
          rw [insertGroups?_succ _ (List.cons_ne_nil _ _)] at h
          rcases Option.bind_eq_some_iff.mp h with ⟨group, hgroup, hbehind⟩
          split at hbehind
          · rcases readGroup?_eq_some hgroup with ⟨front, hfront, hdigits⟩
            rcases ih hbehind with ⟨hkept, hlater⟩
            -- The place is within the label, so nothing is lost when a character comes in.
            have hplace : group.1 % (label.length + 1) ≤ label.length :=
              Nat.le_of_lt_succ (Nat.mod_lt _ (Nat.succ_pos _))
            refine ⟨fun d hd => hkept d ((List.mem_insertIdx hplace).mpr (.inr hd)), ?_⟩
            rw [hfront]
            exact List.forall_mem_append.mpr ⟨hdigits, hlater⟩
          · cases hbehind

/-- The groups are the whole, or they are behind a hyphen. -/
theorem behindHyphen_cases (cs : List Char) :
    cs = (cs.reverse.takeWhile (· ≠ '-')).reverse ∨
      ∃ basic, cs = basic ++ '-' :: (cs.reverse.takeWhile (· ≠ '-')).reverse := by
  have hwhole : cs = (cs.reverse.dropWhile (· ≠ '-')).reverse ++
      (cs.reverse.takeWhile (· ≠ '-')).reverse := by
    rw [← List.reverse_append, List.takeWhile_append_dropWhile, List.reverse_reverse]
  cases hback : cs.reverse.dropWhile (· ≠ '-') with
  | nil =>
      rw [hback] at hwhole
      exact .inl hwhole
  | cons mark rest =>
      -- What stops the search from the end is a hyphen.
      have hmark : mark = '-' := by
        have hhead := List.head?_dropWhile_not (· ≠ '-') cs.reverse
        rw [hback] at hhead
        simpa using hhead
      rw [hback, hmark, List.reverse_cons, List.append_assoc] at hwhole
      exact .inr ⟨rest.reverse, hwhole⟩

/-- What is read as a label has the ASCII characters of the label, hyphens and digits. -/
theorem mem_of_decode? {cs label : List Char} (h : decode? cs = some label) {c : Char}
    (hc : c ∈ cs) : (c ∈ label ∧ c.toNat < 0x80) ∨ c = '-' ∨ (digitValue? c).isSome = true := by
  have hcases := behindHyphen_cases cs
  unfold decode? at h
  generalize (cs.reverse.takeWhile (· ≠ '-')).reverse = groups at h hcases
  simp only at h
  split at h
  · next hbasic =>
    rcases insertGroups?_eq_some h with ⟨hkept, hdigits⟩
    rcases hcases with hgroups | ⟨basic, hfront⟩
    · exact .inr (.inr (hdigits c (hgroups ▸ hc)))
    · -- The basic part is what stands before the last hyphen.
      have htake : cs.take (cs.length - groups.length - 1) = basic := by
        rw [hfront]
        refine List.take_left' ?_
        simp only [List.length_append, List.length_cons]
        omega
      rw [htake] at hkept hbasic
      rw [hfront, List.mem_append, List.mem_cons] at hc
      rcases hc with hin | hhyphen | hgroup
      · exact .inl ⟨hkept c hin, of_decide_eq_true (List.all_eq_true.mp hbasic c hin)⟩
      · exact .inr (.inl hhyphen)
      · exact .inr (.inr (hdigits c hgroup))
  · cases h

end Labels

end Punycode

end TestbedReport
