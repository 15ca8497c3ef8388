/-
Numbers as steps from zero.

The numbers of one sign stand one above the other in the order of their bits,
so that the bits without the sign bit count how many steps a number is away
from zero; the infinity is one step behind the largest number. Downward the
steps are negative (`steps`), and both zeros are at zero.

A number that is made of an exponent and a significand has made all the steps
of the exponents below, and those of its significand (`Dyadic.steps`). A
larger exponent outweighs any significand, since those of larger exponents
are full (`Dyadic.Canonical.steps_le_iff`). So numbers compare as their
steps do (`lt_iff_steps_lt`): their order can be read off the bits.
-/
import Mathlib
import KnnOracle.Proofs.Decimal.Arithmetic
import KnnOracle.Proofs.Decimal.Order
import KnnOracle.Proofs.Decimal.Parts

namespace KnnOracle.Decimal

open Float.Model Float.Model.UnpackedFloat

-- ========================================================= steps of a size

/-- The place of a size, counted in sizes above zero. -/
def Dyadic.steps (d : Dyadic) : ℤ :=
  (d.exponent + 1074) * 2 ^ 52 + d.significand

/-- The place of the infinity. -/
def stepsToInfinity : ℤ := 2047 * 2 ^ 52

namespace Dyadic.Canonical

variable {d d' : Dyadic}

private theorem steps_pos (hd : d.Canonical) : 0 < d.steps := by
  have hpos := hd.pos
  have hleast := hd.least
  unfold Dyadic.steps
  omega

private theorem steps_lt (hd : d.Canonical) (hle : d.exponent ≤ 971) :
    d.steps < stepsToInfinity := by
  have hsmall := hd.small
  unfold Dyadic.steps stepsToInfinity
  omega

/-- A step changes the significand, and the exponent once the significand is
full: so steps count numbers in the order of their values. -/
private theorem steps_le_iff (hd : d.Canonical) (hd' : d'.Canonical) :
    d.steps ≤ d'.steps ↔ d.exponent < d'.exponent ∨
      d.exponent = d'.exponent ∧ d.significand ≤ d'.significand := by
  have hsmall := hd.small
  have hsmall' := hd'.small
  have hleast := hd.least
  have hleast' := hd'.least
  have hfull := hd.full
  have hfull' := hd'.full
  unfold Dyadic.steps
  omega

end Dyadic.Canonical

-- ====================================================== steps of the parts

/-- The parts of a number stand so many steps from zero. -/
inductive StandsAt : UnpackedFloat → ℤ → Prop
  | zero (s : Sign) : StandsAt (.zero s) 0
  | finite (s : Sign) {d : Dyadic} (hd : d.Canonical)
      (hle : d.exponent ≤ 971) :
      StandsAt (.finite s d.significand d.exponent hd.pos) (s.apply d.steps)
  | infinity (s : Sign) : StandsAt (.infinity s) (s.apply stepsToInfinity)

/-- What weighs more stands higher. Weights come from the parts of a number and
steps from its bits, and this ties the two together. -/
theorem StandsAt.weight_le_iff {u v : UnpackedFloat} {p q : ℤ}
    (hu : StandsAt u p) (hv : StandsAt v q) : weight u ≤ weight v ↔ p ≤ q := by
  have hend : 0 < stepsToInfinity := by decide
  cases hu with
  | zero s =>
      cases hv with
      | zero t => simp only [weight, le_refl]
      | finite t hd _ =>
          have := hd.steps_pos
          cases t <;> simp only [weight, triple_le_iff, Sign.apply] <;> omega
      | infinity t =>
          cases t <;> simp only [weight, triple_le_iff, Sign.apply, true_and]
            <;> omega
  | finite s hd hle =>
      have := hd.steps_pos
      have := hd.steps_lt hle
      cases hv with
      | zero t =>
          cases s <;> simp only [weight, triple_le_iff, Sign.apply] <;> omega
      | finite t hd' _ =>
          have := hd'.steps_pos
          -- downward the larger size is the lower number
          have hup := hd.steps_le_iff hd'
          have hdown := hd'.steps_le_iff hd
          cases s <;> cases t <;> simp only [weight, triple_le_iff, Sign.apply,
            true_and] <;> omega
      | infinity t =>
          cases s <;> cases t <;> simp only [weight, triple_le_iff, Sign.apply]
            <;> omega
  | infinity s =>
      cases hv with
      | zero t =>
          cases s <;> simp only [weight, triple_le_iff, Sign.apply, true_and]
            <;> omega
      | finite t hd' hle' =>
          have := hd'.steps_pos
          have := hd'.steps_lt hle'
          cases s <;> cases t <;> simp only [weight, triple_le_iff, Sign.apply]
            <;> omega
      | infinity t =>
          cases s <;> cases t <;> simp only [weight, triple_le_iff, Sign.apply,
            true_and] <;> omega

-- ======================================================= steps of the bits

namespace Magnitude

variable {bits : UInt64}

/-- The place of what a number is, sign apart. That of a NaN is not looked
at. -/
def steps : Magnitude → ℤ
  | .nan => 0
  | .infinite => stepsToInfinity
  | .finite d => d.steps

/-- The bits below the sign bit count the steps. -/
theorem steps_ofBits (h : ofBits bits ≠ .nan) :
    (ofBits bits).steps = (bits.toNat % 2 ^ 63 : ℕ) := by
  unfold ofBits at h ⊢
  dsimp only at h ⊢
  split_ifs at h ⊢
  · unfold steps stepsToInfinity
    dsimp only
    omega
  · exact absurd rfl h
  · unfold steps Dyadic.steps
    dsimp only
    omega
  · unfold steps Dyadic.steps
    dsimp only
    omega

theorem steps_eq_zero_of_ofBits {d : Dyadic} (h : ofBits bits = .finite d)
    (hzero : d.significand = 0) : d.steps = 0 := by
  unfold ofBits at h
  dsimp only at h
  split_ifs at h
  · cases h
    unfold Dyadic.steps
    dsimp only at hzero ⊢
    omega
  · cases h
    dsimp only at hzero
    omega

end Magnitude

end KnnOracle.Decimal

namespace KnnOracle

open Decimal Float.Model Float.Model.UnpackedFloat

variable {x y : Float}

/-- How many numbers a number is above zero, or below it. -/
def steps (x : Float) : ℤ :=
  if x.toBits.toNat < 2 ^ 63 then x.toBits.toNat else 2 ^ 63 - x.toBits.toNat

/-- The steps go up or down by the sign. -/
theorem steps_eq_apply (x : Float) :
    steps x = (signOf x).apply (x.toBits.toNat % 2 ^ 63 : ℕ) := by
  have hlt := x.toBits.toNat_lt
  have hsign : x.toBits ≥ 0x8000000000000000 ↔ 2 ^ 63 ≤ x.toBits.toNat :=
    UInt64.le_iff_toNat_le
  unfold steps signOf isNegative
  simp only [decide_eq_true_eq, hsign]
  split
  · rw [if_neg (by omega), Sign.apply]
    omega
  · rw [if_pos (by omega), Sign.apply]
    omega

/-- What a number is made of stands where its bits say. -/
theorem standsAt_steps (h : x.isNaN = false) :
    StandsAt x.toModel.unpack (steps x) := by
  rw [isNaN_eq_false_iff, unpack_eq] at h
  have hnumber : Magnitude.ofBits x.toBits ≠ .nan := by
    intro hnan
    rw [Magnitude.ofFloat, hnan] at h
    exact absurd rfl h
  rw [unpack_eq, steps_eq_apply, ← Magnitude.steps_ofBits hnumber,
    Magnitude.ofFloat]
  cases hm : Magnitude.ofBits x.toBits with
  | nan => exact absurd hm hnumber
  | infinite => exact .infinity _
  | finite d =>
      by_cases hpos : 0 < d.significand
      · obtain ⟨hd, hle⟩ := canonical_of_finite hm hpos
        simp only [dif_pos hpos]
        exact .finite _ hd hle
      · have hzero := Magnitude.steps_eq_zero_of_ofBits hm (by omega)
        have happly : (signOf x).apply 0 = 0 := by cases signOf x <;> rfl
        simp only [dif_neg hpos, Magnitude.steps, hzero, happly]
        exact .zero _

/-- No step away from zero there are the two zeros, which are equal as
numbers. -/
theorem beq_zero_of_steps (h : steps x = 0) : (x == 0.0) = true := by
  have hpositive : (Float.ofBits 0 == 0.0) = true := by decide
  have hnegative : (Float.ofBits 0x8000000000000000 == 0.0) = true := by decide
  have hbits : x.toBits = 0 ∨ x.toBits = 0x8000000000000000 := by
    rw [← UInt64.toNat_inj, ← UInt64.toNat_inj]
    unfold steps at h
    change x.toBits.toNat = 0 ∨ x.toBits.toNat = 2 ^ 63
    omega
  rw [← Float.ofBits_toBits x]
  rcases hbits with hbits | hbits
  · rwa [hbits]
  · rwa [hbits]

/-- Numbers compare as their steps do. Ranking goes by bits, and this says when
that is the order of numbers. -/
theorem lt_iff_steps_lt (hx : x.isNaN = false) (hy : y.isNaN = false) :
    x < y ↔ steps x < steps y := by
  rw [float_lt_iff, lt_iff_weight_lt, ← isNaN_eq_false_iff,
    ← isNaN_eq_false_iff, ← not_le,
    (standsAt_steps hy).weight_le_iff (standsAt_steps hx), not_le]
  exact (and_iff_right hx).trans (and_iff_right hy)

end KnnOracle
