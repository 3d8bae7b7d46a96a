import Mathlib

/-!
# Decimals of a fixed scale

Rounding to the nearest multiple of `1 / scale`, halves away from zero. Rounding is monotone and leaves what has the
scale alone, so it never passes a bound that has the scale itself.
-/

namespace SalonBooking.Lib

/-- The nearest integer, halves away from zero. -/
def roundHalfUp (x : ℚ) : ℤ := if 0 ≤ x then ⌊x + 1 / 2⌋ else -⌊-x + 1 / 2⌋

/-- `Decimal.quantize` with `ROUND_HALF_UP`. -/
def quantize (scale : ℕ) (x : ℚ) : ℚ := roundHalfUp (x * scale) / scale

/-- A multiple of `1 / scale`. -/
def HasScale (scale : ℕ) (x : ℚ) : Prop := ∃ n : ℤ, x = n / scale

theorem roundHalfUp_intCast (n : ℤ) : roundHalfUp n = n := by
  unfold roundHalfUp
  split
  · rw [Int.floor_eq_iff]
    constructor <;> linarith
  · rw [neg_eq_iff_eq_neg, Int.floor_eq_iff]
    push_cast
    constructor <;> linarith

theorem roundHalfUp_div {n : ℤ} {d : ℕ} (hn : 0 ≤ n) (hd : 0 < d) : roundHalfUp ((n : ℚ) / d) = (2 * n + d) / (2 * d) := by
  have nonneg : (0 : ℚ) ≤ (n : ℚ) / d := by positivity
  have same : (n : ℚ) / d + 1 / 2 = ((2 * n + d : ℤ) : ℚ) / ((2 * d : ℕ) : ℚ) := by
    have hd' : (d : ℚ) ≠ 0 := by positivity
    push_cast
    field_simp
  rw [roundHalfUp, if_pos nonneg, same, Rat.floor_intCast_div_natCast]
  push_cast
  rfl

theorem roundHalfUp_mono {x y : ℚ} (h : x ≤ y) : roundHalfUp x ≤ roundHalfUp y := by
  unfold roundHalfUp
  split_ifs with hx hy hy
  · exact Int.floor_mono (by linarith)
  · linarith
  · have h₁ : 0 ≤ ⌊-x + 1 / 2⌋ := Int.floor_nonneg.mpr (by linarith)
    have h₂ : 0 ≤ ⌊y + 1 / 2⌋ := Int.floor_nonneg.mpr (by linarith)
    omega
  · exact neg_le_neg (Int.floor_mono (by linarith))

section

variable {scale : ℕ} {x y : ℚ}

theorem quantize_of_hasScale (hs : 0 < scale) (h : HasScale scale x) : quantize scale x = x := by
  obtain ⟨n, rfl⟩ := h
  have hs' : (scale : ℚ) ≠ 0 := by positivity
  rw [quantize, div_mul_cancel₀ _ hs', roundHalfUp_intCast]

theorem quantize_mono (h : x ≤ y) : quantize scale x ≤ quantize scale y := by
  unfold quantize
  have hs : (0 : ℚ) ≤ scale := by positivity
  have := roundHalfUp_mono (mul_le_mul_of_nonneg_right h hs)
  gcongr

theorem quantize_le (hs : 0 < scale) (hy : HasScale scale y) (h : x ≤ y) : quantize scale x ≤ y :=
  (quantize_mono h).trans_eq (quantize_of_hasScale hs hy)

end

end SalonBooking.Lib
