import TestbedReport.Decimal.Layout
import Mathlib.Algebra.Order.Field.Power
import Mathlib.Data.List.TakeWhile
import Mathlib.Data.Rat.Cast.Order
import Mathlib.Tactic.Ring
import Mathlib.Tactic.Linarith

/-!
# Significant Digits of a Cell

A floating-point number in a cell has at most seventeen digits that count; behind
them a whole number has zeros. So whatever a whole number of more digits may have
been before it became a floating-point number, its cell shows it only if it happens
to end in zeros (`exists_significant`).

The digits come from a grid of decimals that is chosen by the exponent of the first
digit. That exponent bounds the number from above (`lt_leading`), hence the number
of steps on the grid up to it (`nearestOnGrid?_le`), and a number of so many steps
has so many digits. Whether the digits are those of the nearest decimal, and what
the bits of the number are, is of no importance here.

## Main definitions

* `Digits.value`: The number that digits stand for.

## Theorems

* `Magnitude.lt_leading`: The exponent of the first digit bounds the number.
* `Magnitude.nearestOnGrid?_le`: The number of steps on a grid.
* `Magnitude.shortest_le`: The shortest decimal has at most seventeen digits.
* `exists_significant`: A whole number in a cell ends in zeros.
-/

namespace TestbedReport

namespace Decimal

theorem powerUp_pos (base : Nat) (h : 0 < base) (e : Int) : 0 < powerUp base e :=
  Nat.pow_pos h

/-- The power of an exponent is that of its positive part by that of its negative
    part. -/
theorem cast_powerUp (base : Nat) (h : 0 < base) (e : Int) :
    (powerUp base e : ℚ) = (base : ℚ) ^ e * powerUp base (-e) := by
  have hbase : (base : ℚ) ≠ 0 := Nat.cast_ne_zero.mpr (Nat.pos_iff_ne_zero.mp h)
  rw [powerUp, powerUp, Nat.pow_eq, Nat.pow_eq, Nat.cast_pow, Nat.cast_pow, ← zpow_natCast,
    ← zpow_natCast, ← zpow_add₀ hbase]
  congr 1
  omega

theorem length_ofNat_pos (n : Nat) : 0 < (ofNat n).length :=
  List.length_pos_iff.mpr (ofNat_ne_nil n)

/-- A number is below the power of ten with as many zeros as it has digits. -/
theorem lt_pow_length (n : Nat) : n < 10 ^ (ofNat n).length :=
  (Nat.length_toDigits_le_iff (by decide) (length_ofNat_pos n)).mp (Nat.le_refl _)

/-- A positive number is not below the power of ten with one zero less. -/
theorem pow_length_le {n : Nat} (h : 0 < n) : 10 ^ ((ofNat n).length - 1) ≤ n := by
  by_contra hlt
  rw [Nat.not_le] at hlt
  -- Otherwise one digit less would do.
  rcases Nat.eq_zero_or_pos ((ofNat n).length - 1) with hzero | hpos
  · rw [hzero] at hlt
    omega
  · have hlength : (ofNat n).length ≤ (ofNat n).length - 1 :=
      (Nat.length_toDigits_le_iff (by decide) hpos).mpr hlt
    omega

namespace Magnitude

/-- One above the exponent of the first digit stands for a power of ten above the
    number, which is a fraction with a power of two on one side. -/
theorem leading_cases (v : Magnitude) :
    (∃ k : Nat, v.leadingExponent + 1 = k ∧
      v.significand * powerUp 2 v.exponent < powerUp 2 (-v.exponent) * 10 ^ k) ∨
    ∃ k : Nat, v.leadingExponent + 1 = -k ∧
      v.significand * powerUp 2 v.exponent * 10 ^ k < powerUp 2 (-v.exponent) := by
  have hdenominator := powerUp_pos 2 (by decide) (-v.exponent)
  unfold leadingExponent
  simp only
  generalize v.significand * powerUp 2 v.exponent = numerator
  generalize powerUp 2 (-v.exponent) = denominator at hdenominator
  by_cases hle : denominator ≤ numerator
  · left
    rw [if_pos hle]
    refine ⟨(ofNat (numerator / denominator)).length, by omega, ?_⟩
    rw [Nat.mul_comm]
    exact (Nat.div_lt_iff_lt_mul hdenominator).mp (lt_pow_length _)
  · right
    rw [if_neg hle]
    refine ⟨(ofNat ((denominator + numerator - 1) / numerator - 1)).length - 1, ?_, ?_⟩
    · have hlength := length_ofNat_pos ((denominator + numerator - 1) / numerator - 1)
      omega
    · rcases Nat.eq_zero_or_pos numerator with hzero | hpos
      · rw [hzero, Nat.zero_mul]
        exact hdenominator
      · -- One less than the quotient rounded up stays below the quotient.
        have htwo : 2 ≤ (denominator + numerator - 1) / numerator := by
          rw [Nat.le_div_iff_mul_le hpos]
          omega
        have hmul := Nat.mul_div_le (denominator + numerator - 1) numerator
        have hpow := pow_length_le (n := (denominator + numerator - 1) / numerator - 1) (by omega)
        calc numerator * 10 ^ _
            ≤ numerator * ((denominator + numerator - 1) / numerator - 1) :=
              Nat.mul_le_mul_left numerator hpow
          _ < denominator := by
              rw [Nat.mul_sub_one]
              omega

/-- The exponent of the first digit bounds the number. -/
theorem lt_leading (v : Magnitude) :
    (v.significand : ℚ) * 2 ^ v.exponent < 10 ^ (v.leadingExponent + 1) := by
  have hdenominator : (0 : ℚ) < powerUp 2 (-v.exponent) :=
    Nat.cast_pos.mpr (powerUp_pos _ (by decide) _)
  refine lt_of_mul_lt_mul_right ?_ hdenominator.le
  -- One of the two powers is one, so the numbers that are compared are whole.
  have hnumerator : (v.significand : ℚ) * 2 ^ v.exponent * powerUp 2 (-v.exponent) =
      (v.significand * powerUp 2 v.exponent : Nat) := by
    rw [Nat.cast_mul, cast_powerUp 2 (by decide) v.exponent, Nat.cast_ofNat, mul_assoc]
  rw [hnumerator]
  rcases v.leading_cases with ⟨k, hk, hlt⟩ | ⟨k, hk, hlt⟩
  · rw [hk, zpow_natCast, mul_comm (10 ^ k)]
    exact_mod_cast hlt
  · rw [hk, zpow_neg, zpow_natCast, lt_inv_mul_iff₀ (by positivity), mul_comm]
    exact_mod_cast hlt

/-- On the grid of `k` more digits than the first, the number is reached in fewer
    steps than the power of ten with one zero more. -/
theorem steps_lt (v : Magnitude) (k : Nat) :
    4 * v.significand * (powerUp 2 (v.exponent - 2) * powerUp 10 (-(v.leadingExponent - k))) <
      10 ^ (k + 1) *
        (powerUp 10 (v.leadingExponent - k) * powerUp 2 (2 - v.exponent)) := by
  have hten : (10 : ℚ) ≠ 0 := by norm_num
  -- What both sides have in common, the negative parts of the exponents.
  have hcommon : (0 : ℚ) < powerUp 2 (2 - v.exponent) * powerUp 10 (-(v.leadingExponent - k)) :=
    mul_pos (Nat.cast_pos.mpr (powerUp_pos _ (by decide) _))
      (Nat.cast_pos.mpr (powerUp_pos _ (by decide) _))
  -- The unit is a quarter of the spacing of the numbers, which the four makes up for.
  have htwo : (powerUp 2 (v.exponent - 2) : ℚ) =
      2 ^ v.exponent / 4 * powerUp 2 (2 - v.exponent) := by
    rw [cast_powerUp 2 (by decide) (v.exponent - 2), neg_sub, Nat.cast_ofNat,
      zpow_sub₀ (by norm_num)]
    norm_num
  have hgrid : (10 : ℚ) ^ (k + 1) * powerUp 10 (v.leadingExponent - k) =
      10 ^ (v.leadingExponent + 1) * powerUp 10 (-(v.leadingExponent - k)) := by
    rw [cast_powerUp 10 (by decide) (v.leadingExponent - k), Nat.cast_ofNat, ← mul_assoc,
      ← zpow_natCast, ← zpow_add₀ hten]
    congr 2
    omega
  have hlt := mul_lt_mul_of_pos_right v.lt_leading hcommon
  have hcast : ((4 * v.significand *
      (powerUp 2 (v.exponent - 2) * powerUp 10 (-(v.leadingExponent - k))) : Nat) : ℚ) <
      (10 ^ (k + 1) * (powerUp 10 (v.leadingExponent - k) * powerUp 2 (2 - v.exponent)) : Nat) := by
    push_cast
    calc (4 : ℚ) * v.significand *
          (powerUp 2 (v.exponent - 2) * powerUp 10 (-(v.leadingExponent - k)))
        = v.significand * 2 ^ v.exponent *
          (powerUp 2 (2 - v.exponent) * powerUp 10 (-(v.leadingExponent - k))) := by
          rw [htwo]
          ring
      _ < 10 ^ (v.leadingExponent + 1) *
          (powerUp 2 (2 - v.exponent) * powerUp 10 (-(v.leadingExponent - k))) := hlt
      _ = 10 ^ (k + 1) * (powerUp 10 (v.leadingExponent - k) * powerUp 2 (2 - v.exponent)) := by
          rw [← mul_assoc (10 ^ (k + 1)), hgrid]
          ring
  exact_mod_cast hcast

theorem nearestOnGrid?_le {v : Magnitude} {tiesUp : Bool} {k n : Nat}
    (h : v.nearestOnGrid? tiesUp (v.leadingExponent - k) = some n) : n ≤ 10 ^ (k + 1) := by
  have hbelow := Nat.div_lt_of_lt_mul ((v.steps_lt k).trans_eq (Nat.mul_comm _ _))
  unfold nearestOnGrid? at h
  -- Of the two neighbours the one above is one step further.
  rcases ite_eq_iff.mp h with ⟨_, hn⟩ | ⟨_, hrest⟩
  · rw [← Option.some.inj hn]
    exact hbelow.le
  · rcases ite_eq_iff.mp hrest with ⟨_, hn⟩ | ⟨_, hn⟩
    · rw [← Option.some.inj hn]
      exact hbelow
    · nomatch hn

end Magnitude

/-- The number that digits stand for. -/
def Digits.value (d : Digits) : Nat :=
  Nat.ofDigitChars 10 d.digits 0

/-- Without its zeros at the end a number is no greater. -/
theorem Digits.value_ofGrid_le (n : Nat) (g : Int) : (Digits.ofGrid n g).value ≤ n := by
  have hsplit : ofNat n = (Digits.ofGrid n g).digits ++
      ((ofNat n).reverse.takeWhile (· = '0')).reverse := by
    rw [Digits.ofGrid, ← List.reverse_append, List.takeWhile_append_dropWhile,
      List.reverse_reverse]
  have hzeros : ((ofNat n).reverse.takeWhile (· = '0')).reverse =
      List.replicate ((ofNat n).reverse.takeWhile (· = '0')).reverse.length '0' :=
    List.eq_replicate_of_mem fun c hc => by
      have hzero := List.mem_takeWhile_imp (List.mem_reverse.mp hc)
      exact of_decide_eq_true hzero
  -- The digits that are kept stand in front of the zeros that are not.
  have hvalue : n = 10 ^ ((ofNat n).reverse.takeWhile (· = '0')).reverse.length *
      (Digits.ofGrid n g).value := by
    rw [Digits.value, ← Nat.ofDigitChars_replicate_zero, ← Nat.ofDigitChars_append, ← hzeros,
      ← hsplit, ofNat, Nat.ofDigitChars_ten_toDigits]
  calc (Digits.ofGrid n g).value
      ≤ 10 ^ ((ofNat n).reverse.takeWhile (· = '0')).reverse.length *
          (Digits.ofGrid n g).value := Nat.le_mul_of_pos_left _ (Nat.pow_pos (by decide))
    _ = n := hvalue.symm

/-- The shortest decimal has at most seventeen digits. -/
theorem Magnitude.shortest_le (v : Magnitude) (tiesUp : Bool) :
    (v.shortest tiesUp).value ≤ 10 ^ 17 := by
  unfold shortest
  simp only
  generalize hhit : (List.range 17).findSome? _ = hit
  cases hit with
  | none => decide
  | some d =>
      -- The hit is on one of seventeen grids, each with a digit more than the one before.
      rcases List.exists_of_findSome?_eq_some hhit with ⟨k, hk, hd⟩
      rcases Option.map_eq_some_iff.mp hd with ⟨n, hn, rfl⟩
      have hlast : k + 1 ≤ 17 := List.mem_range.mp hk
      calc (Digits.ofGrid n (v.leadingExponent - k)).value
          ≤ n := Digits.value_ofGrid_le n _
        _ ≤ 10 ^ (k + 1) := nearestOnGrid?_le hn
        _ ≤ 10 ^ 17 := Nat.pow_le_pow_right (by decide) hlast

theorem Digits.positional_eq_of_not_mem (d : Digits) (h : '.' ∉ d.positional []) :
    ∃ zeros, d.positional [] = d.digits ++ List.replicate zeros '0' := by
  unfold positional at h ⊢
  simp only at h ⊢
  -- Of the three forms only the one without a point is left.
  split at h
  · exact absurd (List.mem_append_left _ (List.mem_cons_of_mem _ List.mem_cons_self)) h
  · split at h
    · next hnegative hreach =>
      rw [if_neg hnegative, if_pos hreach]
      exact ⟨_, List.append_nil _⟩
    · exact absurd (List.mem_append_right _ List.mem_cons_self) h

/-- The text of a cell is a word, or digits with a sign where one is due. -/
theorem cellText_cases (x : Float) :
    cellText x ∈ ["NaN", "-inf", "inf"] ∨ ∃ d : Digits, d.value ≤ 10 ^ 17 ∧
      ((cellText x).toList = d.positional [] ∨ (cellText x).toList = '-' :: d.positional []) := by
  have hword : (if x.isNaN then "NaN" else if x < 0 then "-inf" else "inf") ∈
      ["NaN", "-inf", "inf"] := by
    split
    · decide
    · split
      · decide
      · decide
  unfold cellText Layout.write
  cases kindOf x with
  | notANumber => exact Or.inl hword
  | infinite negative => exact Or.inl hword
  | finite negative magnitude =>
      right
      simp only [cell, if_true, String.toList_ofList]
      -- Zero and the other numbers differ in their digits and not in the sign.
      have hsigned : ∀ d : Digits, d.value ≤ 10 ^ 17 → ∃ d' : Digits, d'.value ≤ 10 ^ 17 ∧
          ((if negative then '-' :: d.positional [] else d.positional []) = d'.positional [] ∨
            (if negative then '-' :: d.positional [] else d.positional []) =
              '-' :: d'.positional []) := by
        intro d hvalue
        refine ⟨d, hvalue, ?_⟩
        cases negative with
        | false => exact Or.inl rfl
        | true => exact Or.inr rfl
      cases magnitude with
      | none => exact hsigned ⟨['0'], 0⟩ (by decide)
      | some v => exact hsigned (v.shortest true) (v.shortest_le true)

/-- A floating-point number whose cell is the numeral of a whole number has at most
    seventeen digits, and zeros behind them. -/
theorem exists_significant {x : Float} {n : Nat} (h : (cellText x).toList = ofNat n) :
    ∃ digits zeros, n = 10 ^ zeros * digits ∧ digits ≤ 10 ^ 17 := by
  have hall : (cellText x).toList.all Char.isDigit = true := by
    rw [h]
    exact all_isDigit_ofNat n
  have hdigit := List.all_eq_true.mp hall
  rcases cellText_cases x with hword | ⟨d, hvalue, htext | htext⟩
  · -- A word has letters in it.
    have hletter : ∀ word ∈ ["NaN", "-inf", "inf"], word.toList.all Char.isDigit = false := by
      decide
    rw [hletter _ hword] at hall
    exact absurd hall Bool.false_ne_true
  · have hpoint : '.' ∉ d.positional [] := by
      intro hmem
      rw [← htext] at hmem
      exact absurd (hdigit '.' hmem) (by decide)
    rcases d.positional_eq_of_not_mem hpoint with ⟨zeros, hzeros⟩
    refine ⟨d.value, zeros, ?_, hvalue⟩
    rw [Digits.value, ← Nat.ofDigitChars_replicate_zero, ← Nat.ofDigitChars_append, ← hzeros,
      ← htext, h, ofNat, Nat.ofDigitChars_ten_toDigits]
  · have hsign : '-' ∈ (cellText x).toList := by
      rw [htext]
      exact List.mem_cons_self
    exact absurd (hdigit '-' hsign) (by decide)

end Decimal

end TestbedReport
