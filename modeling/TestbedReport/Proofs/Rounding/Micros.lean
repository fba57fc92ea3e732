import TestbedReport.Rounding

/-!
# Microseconds Rounded as Integers

A latency in whole microseconds becomes hundredths of a millisecond by four steps
in 64 bits: the magnitude, plus five, a tenth of that cut off, and the sign again.
Two things have to come together. The steps must stay in range, and what they come
to must be the nearest tenth.

The first is a matter of the sum alone. No other step is larger than it, so the
computation stays in range exactly up to five below the largest integer
(`isSome_fitting_iff`), and there the wrapped steps are the checked ones.

The second is described by what it is for and not by how it is computed: no other
integer is nearer, and of two that are equally near it is the one farther from zero.
Only one integer is both (`NearestTenth.unique`). That the rounding is odd and
monotone follows from this description.

## Main definitions

* `largestRounded`: The largest magnitude that can be raised by five.
* `tenth`: What the steps come to where none of them leaves the range.
* `NearestTenth`: The nearest integer to a tenth, halves away from zero.

## Theorems

* `NearestTenth.unique`, `NearestTenth.neg`, `NearestTenth.mono`: What follows from the
  description.
* `isSome_fitting_iff`: How far the steps stay in range.
* `hundredthsOfMillis_exact`: Hundredths of a millisecond are exact.
-/

namespace TestbedReport

namespace Rounding

/-- The largest magnitude that can be raised by five in 64 bits. -/
def largestRounded : Nat := 0x7fffffffffffffff - 5

/-- A tenth of a number, to the nearest, halves away from zero. -/
def tenth (value : Int) : Int :=
  value.sign * ((value.natAbs + 5) / 10 : Nat)

/-- The nearest integer to a tenth of a value: none is nearer, and none that is as
    near is farther from zero. -/
structure NearestTenth (value rounded : Int) : Prop where
  nearest : ∀ k, (10 * rounded - value).natAbs ≤ (10 * k - value).natAbs
  away : ∀ k, (10 * k - value).natAbs = (10 * rounded - value).natAbs → k.natAbs ≤ rounded.natAbs

namespace NearestTenth

variable {value rounded : Int}

/-- The nearest integer is within a half. -/
theorem within (h : NearestTenth value rounded) : (10 * rounded - value).natAbs ≤ 5 := by
  -- One of the two integers around the tenth is.
  have hbelow := h.nearest (value / 10)
  have habove := h.nearest (value / 10 + 1)
  omega

/-- Only one integer is the nearest. -/
theorem unique {other : Int} (h : NearestTenth value rounded) (ho : NearestTenth value other) :
    rounded = other := by
  have hdistance : (10 * other - value).natAbs = (10 * rounded - value).natAbs :=
    Nat.le_antisymm (ho.nearest rounded) (h.nearest other)
  have hmagnitude : other.natAbs = rounded.natAbs :=
    Nat.le_antisymm (h.away other hdistance) (ho.away rounded hdistance.symm)
  -- An integer and its opposite are equally near to zero only, where zero is nearer.
  have hzero := h.nearest 0
  omega

/-- The nearest integer to the opposite is the opposite. -/
theorem neg (h : NearestTenth value rounded) : NearestTenth (-value) (-rounded) where
  nearest k := by
    have hk := h.nearest (-k)
    omega
  away k hdistance := by
    have hk := h.away (-k) (by omega)
    omega

/-- The nearest integer to a larger value is no smaller. -/
theorem mono {value' rounded' : Int} (h : NearestTenth value rounded)
    (h' : NearestTenth value' rounded') (hle : value ≤ value') : rounded ≤ rounded' := by
  have hwithin := h.within
  have hwithin' := h'.within
  by_cases heq : value = value'
  · subst heq
    exact Int.le_of_eq (h.unique h')
  · omega

end NearestTenth

/-- What the steps come to is the nearest. -/
theorem nearestTenth_tenth (value : Int) : NearestTenth value (tenth value) := by
  -- With the sign out of the way the rest is division of natural numbers.
  have hcases : tenth value = ((value.natAbs + 5) / 10 : Nat) ∧ 0 ≤ value ∨
      tenth value = -((value.natAbs + 5) / 10 : Nat) ∧ value < 0 := by
    unfold tenth
    rcases Int.lt_trichotomy value 0 with hneg | hzero | hpos
    · exact .inr ⟨by rw [Int.sign_eq_neg_one_of_neg hneg, Int.neg_one_mul], hneg⟩
    · exact .inl ⟨by rw [hzero]; rfl, by omega⟩
    · exact .inl ⟨by rw [Int.sign_eq_one_of_pos hpos, Int.one_mul], by omega⟩
  constructor
  · intro k
    omega
  · intro k hdistance
    omega

section Steps

/-- A result that fits stays as it is. -/
theorem fitting_eq_some (result : Int) (hlow : -0x8000000000000000 ≤ result)
    (hhigh : result ≤ 0x7fffffffffffffff) : fitting? result = some (Int64.ofInt result) :=
  if_pos ⟨hlow, hhigh⟩

theorem toInt_ofInt_of_fits (result : Int) (hlow : -0x8000000000000000 ≤ result)
    (hhigh : result ≤ 0x7fffffffffffffff) : (Int64.ofInt result).toInt = result :=
  Int64.toInt_ofInt_of_le (by omega) (by omega)

/-- A result that fits is the same wrapped around. -/
theorem wrapped_of_fitting {result : Int} {word : Int64} (h : fitting? result = some word) :
    (wrapped result).run = word := by
  unfold fitting? at h
  split at h
  · exact Option.some.inj h
  · exact nomatch h

/-- Where every step fits, the steps that wrap around come to the same. -/
theorem wrapped_eq_of_fitting {micros hundredths : Int64}
    (h : hundredthsOfMillis fitting? micros = some hundredths) :
    (hundredthsOfMillis wrapped micros).run = hundredths := by
  simp only [hundredthsOfMillis, Option.bind_eq_bind, Option.bind_eq_some_iff] at h
  obtain ⟨magnitude, hmagnitude, raised, hraised, quotient, hquotient, hsigned⟩ := h
  have hfirst := wrapped_of_fitting hmagnitude
  have hsecond := wrapped_of_fitting hraised
  have hthird := wrapped_of_fitting hquotient
  have hlast := wrapped_of_fitting hsigned
  simp only [hundredthsOfMillis, Id.run_bind, hfirst, hsecond, hthird, hlast]

/-- Up to five below the largest integer every step fits. -/
theorem fitting_eq_tenth {micros : Int64} (h : micros.toInt.natAbs ≤ largestRounded) :
    hundredthsOfMillis fitting? micros = some (Int64.ofInt (tenth micros.toInt)) := by
  unfold largestRounded at h
  have hmagnitude := fitting_eq_some micros.toInt.natAbs (by omega) (by omega)
  have hmagnitude' := toInt_ofInt_of_fits micros.toInt.natAbs (by omega) (by omega)
  have hraised := fitting_eq_some (micros.toInt.natAbs + 5) (by omega) (by omega)
  have hraised' := toInt_ofInt_of_fits (micros.toInt.natAbs + 5) (by omega) (by omega)
  -- The sum is not negative, so cutting off is the division of natural numbers.
  have hcut : ((micros.toInt.natAbs : Int) + 5).tdiv 10 =
      ((micros.toInt.natAbs + 5) / 10 : Nat) := by
    rw [Int.tdiv_eq_ediv_of_nonneg (by omega)]
    omega
  have hquotient := fitting_eq_some ((micros.toInt.natAbs + 5) / 10 : Nat) (by omega) (by omega)
  have hquotient' := toInt_ofInt_of_fits ((micros.toInt.natAbs + 5) / 10 : Nat) (by omega)
    (by omega)
  have hwithin := (nearestTenth_tenth micros.toInt).within
  have hsigned := fitting_eq_some (tenth micros.toInt) (by omega) (by omega)
  simp only [hundredthsOfMillis, Option.bind_eq_bind, hmagnitude, Option.bind_some, hmagnitude',
    hraised, hraised', hcut, hquotient, hquotient']
  exact hsigned

/-- Every step fits exactly up to five below the largest integer. -/
theorem isSome_fitting_iff (micros : Int64) :
    (hundredthsOfMillis fitting? micros).isSome ↔ micros.toInt.natAbs ≤ largestRounded := by
  constructor
  · intro h
    obtain ⟨hundredths, hrun⟩ := Option.isSome_iff_exists.mp h
    simp only [hundredthsOfMillis, Option.bind_eq_bind, Option.bind_eq_some_iff] at hrun
    obtain ⟨magnitude, hmagnitude, raised, hraised, -⟩ := hrun
    -- Raising the magnitude by five is the step that can leave the range.
    unfold fitting? at hmagnitude hraised
    split at hmagnitude
    · next hfits =>
      rw [← Option.some.inj hmagnitude, toInt_ofInt_of_fits _ hfits.1 hfits.2] at hraised
      split at hraised
      · unfold largestRounded
        omega
      · exact nomatch hraised
    · exact nomatch hmagnitude
  · intro h
    rw [fitting_eq_tenth h]
    rfl

end Steps

/-- The opposite of a number that can be rounded is the opposite integer. -/
theorem toInt_neg_of_le {micros : Int64} (h : micros.toInt.natAbs ≤ largestRounded) :
    (-micros).toInt = -micros.toInt := by
  unfold largestRounded at h
  rw [Int64.toInt_neg]
  exact Int.bmod_eq_of_le (by omega) (by omega)

/-- **Hundredths of a millisecond are exact.** Up to five below the largest integer no
    step leaves 64 bits, with either sign, and what the steps come to is the nearest
    tenth, halves away from zero. The opposite of a number is rounded to the opposite,
    and a larger number to no smaller one. -/
theorem hundredthsOfMillis_exact (micros : Int64)
    (hmicros : micros.toInt.natAbs ≤ largestRounded) :
    ∃ hundredths : Int64,
      hundredthsOfMillis fitting? micros = some hundredths ∧
      (hundredthsOfMillis wrapped micros).run = hundredths ∧
      hundredths.toInt = micros.toInt.sign * ((micros.toInt.natAbs + 5) / 10 : Nat) ∧
      (10 * hundredths.toInt - micros.toInt).natAbs ≤ 5 ∧
      NearestTenth micros.toInt hundredths.toInt ∧
      hundredthsOfMillis fitting? (-micros) = some (-hundredths) ∧
      ∀ more : Int64, micros ≤ more → more.toInt.natAbs ≤ largestRounded →
        ∃ hundredths' : Int64, hundredthsOfMillis fitting? more = some hundredths' ∧
          hundredths ≤ hundredths' := by
  -- A tenth of a number that fits does so itself.
  have hexact : ∀ m : Int64, m.toInt.natAbs ≤ largestRounded →
      (Int64.ofInt (tenth m.toInt)).toInt = tenth m.toInt := by
    intro m hm
    unfold largestRounded at hm
    have hwithin := (nearestTenth_tenth m.toInt).within
    exact toInt_ofInt_of_fits _ (by omega) (by omega)
  have hrun := fitting_eq_tenth hmicros
  have hnearest := nearestTenth_tenth micros.toInt
  refine ⟨Int64.ofInt (tenth micros.toInt), hrun, wrapped_eq_of_fitting hrun, ?_, ?_, ?_, ?_, ?_⟩
  · exact hexact micros hmicros
  · rw [hexact micros hmicros]
    exact hnearest.within
  · rw [hexact micros hmicros]
    exact hnearest
  · have hneg := toInt_neg_of_le hmicros
    have hopposite : tenth (-micros.toInt) = -tenth micros.toInt :=
      (nearestTenth_tenth (-micros.toInt)).unique hnearest.neg
    rw [fitting_eq_tenth (by rw [hneg]; omega), hneg, hopposite, Int64.ofInt_neg]
  · intro more hle hmore
    refine ⟨_, fitting_eq_tenth hmore, ?_⟩
    rw [Int64.le_iff_toInt_le, hexact micros hmicros, hexact more hmore]
    exact hnearest.mono (nearestTenth_tenth more.toInt) (Int64.le_iff_toInt_le.mp hle)

/-- A negative half close to the limit. -/
theorem hundredthsOfMillis_exact_half :
    (-9223372036854775795 : Int64).toInt.natAbs ≤ largestRounded ∧
      ∃ hundredths : Int64,
        (hundredthsOfMillis wrapped (-9223372036854775795)).run = hundredths ∧
        (10 * hundredths.toInt - (-9223372036854775795 : Int64).toInt).natAbs ≤ 5 ∧
        hundredths.toInt = -922337203685477580 := by
  have hbound : (-9223372036854775795 : Int64).toInt.natAbs ≤ largestRounded := by decide
  obtain ⟨hundredths, -, hrun, hvalue, hwithin, -⟩ :=
    hundredthsOfMillis_exact (-9223372036854775795) hbound
  exact ⟨hbound, hundredths, hrun, hwithin, hvalue.trans (by decide)⟩

end Rounding

end TestbedReport
