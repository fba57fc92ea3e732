import TestbedReport.Decimal.Whole

/-!
# Shortest Decimals

A binary floating-point number is written with the fewest digits that read back
as the same number. The number is `m · 2 ^ q`, and every decimal inside the
interval halfway to its two neighbours reads back as it; the ends belong to the
interval when `m` is even, because a reader resolves ties to even.

The search is exact. For one digit, then two, and so on up to seventeen, it
takes the two neighbours of the number on the grid of decimals with that many
digits and keeps those inside the interval. If any decimal of the grid lies in
the interval then one of the two neighbours does, so the first grid with a hit
has the fewest digits, and of two hits the nearer one is taken. A tie between
the two is left to the format that asks.

## Main definitions

* `Magnitude`: A positive floating-point number as `m · 2 ^ q`.
* `Kind`: What a floating-point number is: not a number, infinite, or a sign
  with a magnitude.
* `Digits`: A positive decimal as digits and the exponent of the first.
* `shortest`: The fewest digits that read back.
-/

namespace TestbedReport

namespace Decimal

/-- A positive number `significand · 2 ^ exponent`. `closeBelow` says that the
    neighbour below is half as far away as the one above, which is so at powers
    of two. -/
structure Magnitude where
  significand : Nat
  exponent : Int
  closeBelow : Bool
deriving DecidableEq

/-- The kinds of floating-point numbers. A magnitude is absent for the two
    zeros. -/
inductive Kind where
  | notANumber
  | infinite (negative : Bool)
  | finite (negative : Bool) (magnitude : Option Magnitude)
deriving DecidableEq

/-- The bit above the 52 bits of the fraction. It is not stored, because it is set
    in every number but the smallest. -/
def hiddenBit : Nat := 0x10000000000000

/-- The fields of the 64-bit format: sign, exponent and fraction. -/
def kindOfBits (bits : UInt64) : Kind :=
  let negative := bits.toNat / 0x8000000000000000 = 1
  let exponent : Nat := bits.toNat / hiddenBit % 0x800
  let fraction : Nat := bits.toNat % hiddenBit
  if exponent = 2047 then
    if fraction = 0 then .infinite negative else .notANumber
  else if exponent = 0 then
    .finite negative (if fraction = 0 then none else some ⟨fraction, -1074, false⟩)
  else
    .finite negative (some ⟨fraction + hiddenBit, exponent - 1075, fraction = 0 && 1 < exponent⟩)

/-- The kind of a floating-point number. -/
def kindOf (x : Float) : Kind :=
  kindOfBits x.toBits

/-- A positive decimal `d₁.d₂d₃… · 10 ^ exponent` by its digits. -/
structure Digits where
  digits : List Char
  exponent : Int
deriving DecidableEq

/-- `base ^ e` for the positive part of an exponent, else one. -/
def powerUp (base : Nat) (e : Int) : Nat :=
  Nat.pow base e.toNat

/-- The exponent of the first decimal digit: the largest `e` with
    `10 ^ e ≤ significand · 2 ^ exponent`. -/
def Magnitude.leadingExponent (v : Magnitude) : Int :=
  let numerator := v.significand * powerUp 2 v.exponent
  let denominator := powerUp 2 (-v.exponent)
  if denominator ≤ numerator then
    ((ofNat (numerator / denominator)).length : Int) - 1
  else
    -((ofNat ((denominator + numerator - 1) / numerator - 1)).length : Int)

/-- On the grid of the multiples of `10 ^ g`, the multiple that reads back as
    the number and is nearest to it, if one of its two neighbours there does.

    Both sides of every comparison are scaled to integers: a quarter of the
    spacing of the floating-point numbers is the unit on one side, the grid on
    the other. -/
def Magnitude.nearestOnGrid? (v : Magnitude) (tiesUp : Bool) (g : Int) : Option Nat :=
  let gridScale := powerUp 10 g * powerUp 2 (2 - v.exponent)
  let unitScale := powerUp 2 (v.exponent - 2) * powerUp 10 (-g)
  let value := 4 * v.significand * unitScale
  let low := (4 * v.significand - if v.closeBelow then 1 else 2) * unitScale
  let high := (4 * v.significand + 2) * unitScale
  let inside (n : Nat) : Bool :=
    if v.significand % 2 = 0 then low ≤ n * gridScale && n * gridScale ≤ high
    else low < n * gridScale && n * gridScale < high
  -- The two neighbours of the value on the grid, and how far away they are.
  let below := value / gridScale
  let above := below + 1
  let toBelow := value - below * gridScale
  let toAbove := above * gridScale - value
  let belowFirst :=
    toBelow < toAbove || toBelow = toAbove && if tiesUp then false else below % 2 = 0
  if inside below && (belowFirst || !inside above) then some below
  else if inside above then some above
  else none

/-- The digits of `n · 10 ^ g` without the zeros at the end. -/
def Digits.ofGrid (n : Nat) (g : Int) : Digits :=
  let all := ofNat n
  ⟨(all.reverse.dropWhile (· = '0')).reverse, g + all.length - 1⟩

/-- The fewest digits that read back as the number. Seventeen always do. -/
def Magnitude.shortest (v : Magnitude) (tiesUp : Bool) : Digits :=
  let leading := v.leadingExponent
  let hit := (List.range 17).findSome? fun (k : Nat) =>
    let g := leading - k
    (v.nearestOnGrid? tiesUp g).map fun n => Digits.ofGrid n g
  hit.getD ⟨['0'], 0⟩

end Decimal

end TestbedReport
