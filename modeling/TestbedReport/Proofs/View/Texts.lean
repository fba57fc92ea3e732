import TestbedReport.Proofs.Decimal.Numeral
import TestbedReport.Proofs.View.Fields

/-!
# Texts among the Measurements

The server sends some measurements as texts, and two columns of the readable view
compute with what they show. A text that is no number is meant to count as zero, so
that whoever reads the column finds a number in every row.

The reader of numbers accepts more than numerals, though. It knows words for infinity
and for what is not a number, and such a word goes through the rounding as it is: the
field is then a word again. That is the whole of the exception. Of the texts that are
no numerals, the words are shown as words and all others as zero
(`text_shows_zero_iff`).

## Main definitions

* `View.measurements`: The columns that compute, with their sources.

## Theorems

* `Rounding.toHundredths_wordValues`: A word survives the rounding.
* `View.field_text`: What a column that computes shows of a text.
* `View.text_shows_zero_iff`: When a text that is no numeral shows as zero.
* `View.not_zero_nan`: A text that is no numeral and does not show as zero.
-/

namespace TestbedReport

open Decimal

namespace Rounding

/-- The two roundings of a number in the readable view: of microseconds, and of
    anything else. -/
def readings (x : Float) : List Float :=
  [toHundredths (x / 1000.0), toHundredths x]

/-- Zero is rounded to zero, and its field is the digit. -/
theorem toHundredths_zero : (∀ y ∈ readings 0.0, y = 0.0) ∧ cellText 0.0 = "0" := by
  decide +kernel

/-- A word survives the rounding, and its field is a word. -/
theorem toHundredths_wordValues :
    ∀ x ∈ wordValues, ∀ y ∈ readings x, y ≠ 0.0 ∧ cellText y ∈ ["inf", "-inf", "NaN"] := by
  decide +kernel

end Rounding

namespace View

/-- The columns of the readable view that compute with what they show, with their
    sources. -/
def measurements : List (String × String) :=
  [("latency", "lat_combined"), ("energy", "energy_total")]

/-- A column that computes shows of a text the number that it stands for, or zero. -/
theorem field_text (r : Record) {column source text : String}
    (hcolumn : (column, source) ∈ measurements) (hsource : r.get? source = some (.text text)) :
    ∃ y ∈ Rounding.readings ((toFloat? (Text.trimBlank text.toList)).getD 0.0),
      (View.readable.project r).get? column = some (.float y) := by
  simp only [measurements, List.mem_cons, Prod.mk.injEq, List.not_mem_nil, or_false] at hcolumn
  -- Two columns compute, each with a rounding of its own.
  rcases hcolumn with ⟨rfl, rfl⟩ | ⟨rfl, rfl⟩
  · have hget := get?_project .readable r ⟨"latency", "lat_combined", .microsToMillis⟩ (by decide)
    refine ⟨_, List.mem_cons_self, ?_⟩
    rw [hget, ViewColumn.value?, hsource]
    rfl
  · have hget := get?_project .readable r ⟨"energy", "energy_total", .hundredths⟩ (by decide)
    refine ⟨_, List.mem_cons_of_mem _ List.mem_cons_self, ?_⟩
    rw [hget, ViewColumn.value?, hsource]
    rfl

/-- The field of a number is its text. -/
theorem fieldUnder_float (r : Record) {column : String} {x : Float}
    (h : r.get? column = some (.float x)) : r.fieldUnder column = cellText x := by
  rw [Record.fieldUnder, h]
  rfl

/-- **When a text that is no numeral shows as zero.** In the columns of the readable
    view that compute, with blanks around the text or not, it does so exactly if it is
    not one of the words for infinity and for what is not a number, and then its field
    is the digit zero. A word shows as a word. -/
theorem text_shows_zero_iff (r : Record) (column source text : String)
    (hcolumn : (column, source) ∈ measurements) (hsource : r.get? source = some (.text text))
    (hnot : ¬IsNumeral (Text.trimBlank text.toList)) :
    ((View.readable.project r).get? column = some (.float 0.0) ↔
        ¬IsWord (Text.trimBlank text.toList)) ∧
      ((View.readable.project r).fieldUnder column = "0" ↔
        ¬IsWord (Text.trimBlank text.toList)) ∧
      (IsWord (Text.trimBlank text.toList) →
        (View.readable.project r).fieldUnder column ∈ ["inf", "-inf", "NaN"]) := by
  obtain ⟨y, hy, hget⟩ := field_text r hcolumn hsource
  have hfield := fieldUnder_float _ hget
  by_cases hword : IsWord (Text.trimBlank text.toList)
  · -- A word stands for a number that is not finite, and it stays one.
    obtain ⟨x, hx, hvalue⟩ := toFloat?_of_isWord hword
    rw [hvalue, Option.getD_some] at hy
    obtain ⟨hzero, hcell⟩ := Rounding.toHundredths_wordValues x hx y hy
    rw [← hfield] at hcell
    refine ⟨iff_of_false ?_ (not_not_intro hword), iff_of_false ?_ (not_not_intro hword),
      fun _ => hcell⟩
    · rw [hget]
      exact fun heq => hzero (Scalar.float.inj (Option.some.inj heq))
    · intro heq
      rw [heq] at hcell
      exact absurd hcell (by decide)
  · -- Any other text that is no numeral is no number at all.
    have hnone : toFloat? (Text.trimBlank text.toList) = none := by
      have hsome := isSome_toFloat?_iff (Text.trimBlank text.toList)
      cases hvalue : toFloat? (Text.trimBlank text.toList) with
      | none => rfl
      | some x =>
          rw [hvalue] at hsome
          exact absurd (hsome.mp rfl) (not_or.mpr ⟨hnot, hword⟩)
    rw [hnone, Option.getD_none] at hy
    have hzero := Rounding.toHundredths_zero.1 y hy
    rw [hzero] at hget hfield
    refine ⟨iff_of_true hget hword, iff_of_true ?_ hword, fun h => absurd h hword⟩
    rw [hfield]
    exact Rounding.toHundredths_zero.2

/-- A text with a sign, digits and a mark, and with blanks around it, that is no
    numeral because digits are missing behind the mark. -/
theorem text_shows_zero_iff_cut :
    ¬IsNumeral (Text.trimBlank " -12.5e+ ".toList) ∧ ¬IsWord (Text.trimBlank " -12.5e+ ".toList) ∧
      (View.readable.project (.ofList [("energy_total", .text " -12.5e+ ")])).fieldUnder "energy" =
        "0" := by
  have hnumeral : ¬IsNumeral (Text.trimBlank " -12.5e+ ".toList) := by decide +kernel
  have hword : ¬IsWord (Text.trimBlank " -12.5e+ ".toList) := by decide +kernel
  have hshown := text_shows_zero_iff (.ofList [("energy_total", .text " -12.5e+ ")]) "energy"
    "energy_total" " -12.5e+ " (by decide) rfl hnumeral
  exact ⟨hnumeral, hword, hshown.2.1.mpr hword⟩

/-- A text that is no numeral and does not show as zero: its field is no number. -/
theorem not_zero_nan :
    let r := Record.ofList [("lat_combined", .text "nan")]
    r.get? "lat_combined" = some (.text "nan") ∧ ¬IsNumeral (Text.trimBlank "nan".toList) ∧
      (View.readable.project r).get? "latency" ≠ some (.float 0.0) ∧
      (View.readable.project r).fieldUnder "latency" = "NaN" := by
  intro r
  have hnan : (View.readable.project r).fieldUnder "latency" = "NaN" := by decide +kernel
  refine ⟨rfl, by decide +kernel, fun hzero => ?_, hnan⟩
  rw [fieldUnder_float _ hzero, Rounding.toHundredths_zero.2] at hnan
  exact absurd hnan (by decide)

end View

end TestbedReport
