import TestbedReport.Base64

/-!
# Firmware in Sixty-Four Characters

What is encoded is decoded to the very same bytes, for any number of them. The
encoder works on three bytes at a time and the decoder on four characters, so one
step of the one is undone by one step of the other, and the two short groups at
the end are undone with their padding. The padding is never mistaken for a full
group, because the equals sign is none of the sixty-four characters.

A byte is cut at six bits and put together at eight. That the pieces fit is
arithmetic on their values below 64, and below 256 once they are joined.

## Theorems

* `Base64.value?_symbol`: A character has the value it stands for.
* `Base64.decode?_group`: A full group is read as three bytes.
* `Base64.decode?_encode`: What is encoded is decoded.
-/

namespace TestbedReport

namespace Base64

/-- A character has the value it stands for. -/
theorem value?_symbol (n : Nat) (h : n < 64) : value? (symbol n) = some n := by
  have hall : ∀ m < 64, value? (symbol m) = some m := by decide
  exact hall n h

/-- The padding is none of the sixty-four characters. -/
theorem symbol_ne_padding (n : Nat) (h : n < 64) : symbol n ≠ '=' := by
  have hall : ∀ m < 64, symbol m ≠ '=' := by decide
  exact hall n h

/-- A group without padding is read as three bytes, whatever follows. -/
theorem decode?_group (w x y z : Nat) (hw : w < 64) (hx : x < 64) (hy : y < 64) (hz : z < 64)
    (rest : List Char) :
    decode? (symbol w :: symbol x :: symbol y :: symbol z :: rest) =
      (decode? rest).map fun bytes =>
        UInt8.ofNat (w * 4 + x / 16) :: UInt8.ofNat (x % 16 * 16 + y / 4) ::
          UInt8.ofNat (y % 4 * 64 + z) :: bytes := by
  rw [decode?]
  · simp only [value?_symbol, hw, hx, hy, hz, Option.bind_eq_bind, Option.bind_some]
    cases decode? rest <;> rfl
  · -- The last character is no padding, so the two shorter forms do not apply.
    intro hy' hz' _
    exact symbol_ne_padding z hz hz'
  · intro hz' _
    exact symbol_ne_padding z hz hz'

/-- What is encoded is decoded. -/
theorem decode?_encode (bytes : List UInt8) : decode? (encode bytes) = some bytes := by
  fun_induction encode bytes with
  | case1 => rfl
  -- One byte is two symbols, two are three, and from three bytes on it is groups.
  | case2 a =>
      have ha := a.toNat_lt
      have hbits : a.toNat % 4 * 16 % 16 = 0 := by omega
      have hbyte : a.toNat / 4 * 4 + a.toNat % 4 * 16 / 16 = a.toNat := by omega
      simp only [decode?, value?_symbol _ (show a.toNat / 4 < 64 by omega),
        value?_symbol _ (show a.toNat % 4 * 16 < 64 by omega), Option.bind_eq_bind,
        Option.bind_some, hbits, if_true, hbyte, UInt8.ofNat_toNat]
  | case3 a b =>
      have ha := a.toNat_lt
      have hb := b.toNat_lt
      have hpadding := symbol_ne_padding (b.toNat % 16 * 4) (by omega)
      have hbits : b.toNat % 16 * 4 % 4 = 0 := by omega
      have hfirst : a.toNat / 4 * 4 + (a.toNat % 4 * 16 + b.toNat / 16) / 16 = a.toNat := by omega
      have hsecond : (a.toNat % 4 * 16 + b.toNat / 16) % 16 * 16 + b.toNat % 16 * 4 / 4 =
          b.toNat := by omega
      rw [decode?]
      · simp only [value?_symbol _ (show a.toNat / 4 < 64 by omega),
          value?_symbol _ (show a.toNat % 4 * 16 + b.toNat / 16 < 64 by omega),
          value?_symbol _ (show b.toNat % 16 * 4 < 64 by omega), Option.bind_eq_bind,
          Option.bind_some, hbits, if_true, hfirst, hsecond, UInt8.ofNat_toNat]
      · exact fun hc => hpadding hc
  | case4 a b c rest ih =>
      have ha := a.toNat_lt
      have hb := b.toNat_lt
      have hc := c.toNat_lt
      have hfirst : a.toNat / 4 * 4 + (a.toNat % 4 * 16 + b.toNat / 16) / 16 = a.toNat := by omega
      have hsecond : (a.toNat % 4 * 16 + b.toNat / 16) % 16 * 16 +
          (b.toNat % 16 * 4 + c.toNat / 64) / 4 = b.toNat := by omega
      have hthird : (b.toNat % 16 * 4 + c.toNat / 64) % 4 * 64 + c.toNat % 64 = c.toNat := by omega
      rw [decode?_group _ _ _ _ (by omega) (by omega) (by omega) (by omega), ih, Option.map_some,
        hfirst, hsecond, hthird, UInt8.ofNat_toNat, UInt8.ofNat_toNat, UInt8.ofNat_toNat]

end Base64

end TestbedReport
