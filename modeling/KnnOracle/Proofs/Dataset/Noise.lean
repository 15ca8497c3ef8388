/-
Noise: which degrees have some, and what is drawn of it.

The scale of noise is the width of its range over the largest number that
`unit` gives. The width is exact until it is infinite, so the degree alone
tells whether the scale overflows: it does beyond `widestDegree`
(`isSome_ofDegree?_iff`), a little below half of the largest number. A degree
up to there has noise whose scale is finite, and since `unit` is finite as
well, what is drawn is never a NaN (`Noise.isNaN_draw`).
-/
import Mathlib
import KnnOracle.Proofs.Dataset.Uniform

namespace KnnOracle.Random

open Decimal Float.Model Float.Model.UnpackedFloat
open Decimal.Dyadic (limit)

variable {degree : Float} {d : Decimal.Dyadic} {noise : Noise}

-- ============================================================== the widest

/-- The largest degree whose range is not too wide. -/
def widestDegree : Float := Float.ofBits 0x7FDFFFFFFFFFFFFD

/-- The largest draw is one unit short of one. -/
private theorem hasSize_unitMax : HasSize unitMax ⟨2 ^ 53 - 2, -53⟩ := by
  have hbits : unitMax = Float.ofBits
      (UInt64.ofNat (1022 * 2 ^ 52 + (2 ^ 52 - 2))) :=
    congrArg Float.ofBits (by decide)
  rw [hbits]
  exact hasSize_ofBits (by decide) (by decide) (by decide)

/-- The widest degree is the last one whose doubled width, divided by the
largest draw, is finite. -/
private theorem hasSize_widestDegree :
    HasSize widestDegree ⟨2 ^ 53 - 3, 970⟩ := by
  have hbits : widestDegree
      = Float.ofBits (UInt64.ofNat (2045 * 2 ^ 52 + (2 ^ 52 - 3))) :=
    congrArg Float.ofBits (by decide)
  rw [hbits]
  exact hasSize_ofBits (by decide) (by decide) (by decide)

theorem limit_mul_unitMax : limit * Decimal.Dyadic.value ⟨2 ^ 53 - 2, -53⟩
    = 2 * ((2 ^ 54 - 1) * (2 ^ 52 - 1) * 2 ^ (917 : ℤ)) := by
  have hpower : (2 : ℚ) ^ (917 : ℤ) = 2 ^ (970 : ℤ) * 2 ^ (-53 : ℤ) :=
    zpow_add₀ (by norm_num) 970 (-53)
  rw [limit, Decimal.Dyadic.value, hpower]
  generalize (2 : ℚ) ^ (970 : ℤ) = power
  push_cast
  ring

/-- Where the scale reaches the limit: there are 53 bits both in the width and
in the largest draw, and the limit has one more. -/
theorem scale_lt_limit_iff (hd : d.Canonical) :
    2 * d.value / Decimal.Dyadic.value ⟨2 ^ 53 - 2, -53⟩ < limit
      ↔ d.exponent < 970 ∨ d.exponent = 970 ∧ d.significand ≤ 2 ^ 53 - 3 := by
  have hunit : (0 : ℚ) < 2 ^ (917 : ℤ) := by positivity
  have hscale (k : ℕ) : (2 : ℚ) ^ (917 + k : ℤ) = 2 ^ k * 2 ^ (917 : ℤ) := by
    rw [zpow_add₀ (by norm_num), zpow_natCast, mul_comm]
  have hbelow (h : d.exponent < 970) :
      (2 : ℚ) ^ d.exponent ≤ 2 ^ 52 * 2 ^ (917 : ℤ) :=
    (zpow_le_zpow_right₀ (by norm_num) (by omega)).trans_eq (hscale 52)
  have hat (h : d.exponent = 970) :
      (2 : ℚ) ^ d.exponent = 2 ^ 53 * 2 ^ (917 : ℤ) := by
    rw [h]
    exact hscale 53
  have habove (h : 970 < d.exponent) :
      2 ^ 54 * 2 ^ (917 : ℤ) ≤ (2 : ℚ) ^ d.exponent :=
    (hscale 54).symm.trans_le
      (zpow_le_zpow_right₀ (by norm_num) (by push_cast; omega))
  rw [div_lt_iff₀ (by unfold Decimal.Dyadic.value; positivity),
    limit_mul_unitMax, mul_lt_mul_iff_right₀ two_pos, Decimal.Dyadic.value]
  generalize (2 : ℚ) ^ (917 : ℤ) = unit at hunit hbelow hat habove ⊢
  rcases lt_trichotomy d.exponent 970 with hlt | heq | hgt
  · refine iff_of_true ?_ (.inl hlt)
    have hsmall : (d.significand : ℚ) < 2 ^ 53 := by exact_mod_cast hd.small
    calc (d.significand : ℚ) * 2 ^ d.exponent
        ≤ d.significand * (2 ^ 52 * unit) := by
          have := hbelow hlt
          gcongr
      _ < 2 ^ 53 * (2 ^ 52 * unit) := by gcongr
      _ ≤ (2 ^ 54 - 1) * (2 ^ 52 - 1) * unit := by
          rw [← mul_assoc]
          exact mul_le_mul_of_nonneg_right (by norm_num) hunit.le
  · have hwhole : (d.significand : ℚ) * 2 ^ 53 < (2 ^ 54 - 1) * (2 ^ 52 - 1)
        ↔ d.significand * 2 ^ 53 < (2 ^ 54 - 1) * (2 ^ 52 - 1) := by
      rw [← Nat.cast_lt (α := ℚ)]
      norm_num
    rw [hat heq, ← mul_assoc, mul_lt_mul_iff_left₀ hunit, hwhole]
    omega
  · refine iff_of_false (not_lt.mpr ?_) (by omega)
    have hfull : (2 ^ 52 : ℚ) ≤ d.significand := by
      exact_mod_cast hd.full.resolve_right (by omega)
    calc ((2 ^ 54 - 1) * (2 ^ 52 - 1) : ℚ) * unit
        ≤ 2 ^ 52 * (2 ^ 54 * unit) := by
          rw [← mul_assoc]
          exact mul_le_mul_of_nonneg_right (by norm_num) hunit.le
      _ ≤ d.significand * 2 ^ d.exponent := by
          have := habove hgt
          gcongr

/-- Over the largest draw, which is less than one, a width grows. So the scale
is never less than the width, and may be too much for a float although the
width is not. -/
theorem width_le_scale (hd : d.Canonical) :
    d.value ≤ d.value / Decimal.Dyadic.value ⟨2 ^ 53 - 2, -53⟩ := by
  have hpos : 0 ≤ d.value := le_trans (by positivity) hd.le_value
  refine le_div_self hpos (by unfold Decimal.Dyadic.value; positivity) ?_
  norm_num [Decimal.Dyadic.value]

/-- The scale is a number up to the widest degree, and infinite beyond it. The
widest degree is found exactly, by the rounding of the last quotient. -/
theorem scale_cases (h : HasSize degree d) :
    (degree ≤ widestDegree ∧
      ∃ scale, HasSize ((degree - -degree) / unitMax) scale) ∨
    (¬ degree ≤ widestDegree ∧
      ((degree - -degree) / unitMax).isFinite = false) := by
  rw [h.le_iff hasSize_widestDegree, ← scale_lt_limit_iff h.1, not_lt]
  rcases sub_neg_cases h with ⟨-, width, hsize, hvalue⟩ | ⟨hlimit, hinfinite⟩
  · have hlow : 2 ^ (-1075 : ℤ)
        < width.value / Decimal.Dyadic.value ⟨2 ^ 53 - 2, -53⟩ :=
      (zpow_lt_zpow_right₀ (by norm_num) (by norm_num)).trans_le
        (hsize.1.le_value.trans (width_le_scale hsize.1))
    rw [← hvalue]
    exact div_cases hsize hasSize_unitMax hlow
  · -- the width is infinite, and what it is divided by does not matter
    obtain ⟨twice, htwice, hvalue⟩ := exists_double h.1
    rw [← hvalue] at hlimit ⊢
    exact .inr ⟨hlimit.trans (width_le_scale htwice),
      isFinite_div_of_infinite hinfinite hasSize_unitMax⟩

/-- Noise of a degree can be drawn if its scale is finite. The scale is then
lowered until no draw goes beyond the degree. -/
private theorem ofDegree?_eq_some_iff :
    Noise.ofDegree? degree = some noise ↔
      ((degree - -degree) / unitMax).isFinite = true ∧
      noise = ⟨fitScale degree ((degree - -degree) / unitMax).toBits.toNat,
        degree⟩ := by
  unfold Noise.ofDegree?
  dsimp only
  split
  · rw [Option.some_inj, eq_comm]
    exact (and_iff_right ‹_›).symm
  · exact iff_of_false (Option.some_ne_none _).symm fun h => absurd h.1 ‹_›

/-- A degree above zero has noise up to the widest. Beyond it the sampler of
the program panics. -/
theorem isSome_ofDegree?_iff (h : HasSize degree d) :
    (Noise.ofDegree? degree).isSome = true ↔ degree ≤ widestDegree := by
  rw [Option.isSome_iff_exists]
  simp only [ofDegree?_eq_some_iff, exists_and_left, exists_eq, and_true]
  rcases scale_cases h with ⟨hle, scale, hscale⟩ | ⟨hwide, hinfinite⟩
  · exact iff_of_true hscale.isFinite hle
  · exact iff_of_false (Bool.not_eq_true _ ▸ hinfinite) hwide

-- =============================================================== the draws

/-- A scale that is fitted is a number that the bits were counted down to. -/
theorem isFinite_fitScale (degree : Float) {bits : Nat}
    (h : bits < 2047 * 2 ^ 52) :
    (fitScale degree bits).isFinite = true := by
  induction bits with
  | zero =>
      show (0.0 : Float).isFinite = true
      decide
  | succ bits ih =>
      rw [fitScale]
      split
      · exact ih (Nat.lt_of_succ_lt h)
      · exact isFinite_ofBits h

/-- The scale of noise is finite, also after it was fitted. -/
theorem Noise.isFinite_scale (h : HasSize degree d)
    (hnoise : Noise.ofDegree? degree = some noise) :
    noise.scale.isFinite = true := by
  obtain ⟨hfinite, rfl⟩ := ofDegree?_eq_some_iff.mp hnoise
  rcases scale_cases h with ⟨-, scale, hscale⟩ | ⟨-, hinfinite⟩
  · exact isFinite_fitScale degree hscale.toBits_lt
  · rw [hinfinite] at hfinite
    cases hfinite

/-- No draw is a NaN: a finite scale times a number below one, with a finite
offset added. -/
theorem Noise.isNaN_draw (h : HasSize degree d)
    (hnoise : Noise.ofDegree? degree = some noise) (s : Stream) :
    (noise.draw s).1.isNaN = false := by
  have hscale := Noise.isFinite_scale h hnoise
  obtain ⟨-, rfl⟩ := ofDegree?_eq_some_iff.mp hnoise
  have hshift := isFinite_neg h.isFinite
  exact isNaN_add (isNaN_mul (isFinite_unit s) hscale)
    (isNaN_of_isFinite hshift) (.inr hshift)

end KnnOracle.Random
