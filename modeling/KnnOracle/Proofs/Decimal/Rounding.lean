/-
Rounding to a binary64.

# The interval

Around a binary64 lies the interval of rationals that round to it
(`Dyadic.Attracts`). Its ends lie halfway to the two neighbors, and belong
to it when the significand is even. Whatever a computation has for its
exact result, if that lies in the interval of a number, then the number is
what comes out.

# Two roundings that are one

The result of an operation is kept as a quotient of natural numbers, of
which the whole part and two bits about the rest are known. Halving keeps
that form (`shiftRightOne_residue`), so that shifting a quotient to the
exponent of the result and rounding it there is rounding the quotient once
(`roundedMantissa_residue`). The exponent is that of the number, or one
less just below a power of two (`targetExponent_cases`); in the second case
the rounding carries into it. So the number comes out (`roundWithAccuracy_eq`),
of a quotient as of a product (`div_eq`, `mul_eq`).
-/
import Mathlib
import KnnOracle.Decimal.Dyadic

namespace KnnOracle.Decimal

open Float.Model Float.Model.UnpackedFloat

-- ======================================================== the interval

namespace Dyadic

/-- A significand and an exponent as a binary64 has them: all 53 bits are
used, or the exponent is the least one. -/
structure Canonical (d : Dyadic) : Prop where
  pos : 0 < d.significand
  small : d.significand < 2 ^ 53
  least : -1074 ≤ d.exponent
  full : 2 ^ 52 ≤ d.significand ∨ d.exponent = -1074

/-- The distance to the lower end, in quarters of a unit in the last
place. -/
def below (d : Dyadic) : Nat :=
  if d.significand = 2 ^ 52 ∧ d.exponent > -1074 then 1 else 2

/-- Halfway to the number below. -/
def lowEnd (d : Dyadic) : ℚ :=
  (4 * d.significand - d.below) * 2 ^ (d.exponent - 2)

/-- Halfway to the number above. -/
def highEnd (d : Dyadic) : ℚ := (4 * d.significand + 2) * 2 ^ (d.exponent - 2)

/-- A rational rounds to the dyadic. -/
structure Attracts (d : Dyadic) (x : ℚ) : Prop where
  low : d.lowEnd ≤ x
  high : x ≤ d.highEnd
  inside : d.significand % 2 = 1 → d.lowEnd < x ∧ x < d.highEnd

variable {d : Dyadic} {x : ℚ}

/-- The interval below a number reaches half a unit down, or a quarter where
the unit changes. -/
theorem below_le (d : Dyadic) : d.below ≤ 2 := by
  unfold below
  split <;> omega

theorem two_zpow_add (e : ℤ) (k : ℕ) :
    (2 : ℚ) ^ (e + k) = 2 ^ (k + 2) * 2 ^ (e - 2) := by
  rw [← zpow_natCast, ← zpow_add₀ (by norm_num)]
  push_cast
  ring_nf

/-- Interval ends are counted in quarters of the unit, so that all of them are
whole numbers. -/
theorem two_zpow_unit (e : ℤ) : (2 : ℚ) ^ e = 4 * 2 ^ (e - 2) := by
  have h := two_zpow_add e 0
  norm_num at h
  exact h

end Dyadic

-- ================================================== quotients and halves

/-- What is kept of a quotient: its whole part, and how the rest compares
with nothing and with a half. -/
def residue (n d : Nat) : ExtendedMantissa :=
  .ofMantissaAndAccuracy (n / d) (accuracyOfFraction (n % d) d)

/-- What is cut off is remembered in two bits: whether it is half of the unit
or more, and whether anything besides the half is there. -/
private theorem residue_eq (n : Nat) {d : Nat} (hd : 0 < d) :
    residue n d = ⟨n / d, decide (d ≤ 2 * (n % d)),
      decide (n % d ≠ 0 ∧ 2 * (n % d) ≠ d)⟩ := by
  unfold residue accuracyOfFraction
  split
  · next h =>
      have hle : ¬d ≤ 2 * (n % d) := by omega
      simp [ExtendedMantissa.ofMantissaAndAccuracy, h]
      omega
  · next h =>
      cases hc : compare (2 * (n % d)) d with
      | lt =>
          have := Nat.compare_eq_lt.mp hc
          simp [ExtendedMantissa.ofMantissaAndAccuracy, h]
          omega
      | eq =>
          have := Nat.compare_eq_eq.mp hc
          simp [ExtendedMantissa.ofMantissaAndAccuracy, this]
      | gt =>
          have := Nat.compare_eq_gt.mp hc
          simp [ExtendedMantissa.ofMantissaAndAccuracy, h]
          omega

/-- Halving what is kept of a quotient is keeping as much of half of it: one
bit moves to the next, and what falls off is not forgotten. -/
theorem shiftRightOne_residue (n : Nat) {d : Nat} (hd : 0 < d) :
    (residue n d).shiftRightOne = residue n (2 * d) := by
  have hquotient : n / (2 * d) = n / d / 2 := by
    rw [Nat.div_div_eq_div_mul, Nat.mul_comm]
  have hrest : n % (2 * d) = n % d + d * (n / d % 2) := by
    rw [Nat.mul_comm 2 d, Nat.mod_mul]
  have hlt := Nat.mod_lt n hd
  have hkept :
      (decide (d ≤ 2 * (n % d)) || decide (n % d ≠ 0 ∧ 2 * (n % d) ≠ d))
      = decide (n % d ≠ 0) := by
    rw [← Bool.decide_or]
    exact decide_eq_decide.mpr (by omega)
  rw [residue_eq n hd, residue_eq n (by omega), hquotient, hrest]
  simp only [ExtendedMantissa.shiftRightOne, ExtendedMantissa.mk.injEq, hkept]
  refine ⟨trivial, ?_, decide_eq_decide.mpr ?_⟩
  all_goals obtain h | h := Nat.mod_two_eq_zero_or_one (n / d)
  all_goals simp only [h]
  all_goals simp
  all_goals omega

/-- Cutting twice is cutting once by the product, which is why two bits are
enough. -/
private theorem shiftRight_residue (n : Nat) {d : Nat} (hd : 0 < d) (k : Nat) :
    residue n d >>> k = residue n (2 ^ k * d) := by
  induction k with
  | zero => simp only [pow_zero, one_mul]; rfl
  | succ k ih =>
      change (residue n d >>> k).shiftRightOne = _
      rw [ih, shiftRightOne_residue n (by positivity), pow_succ']
      ring_nf

private theorem accuracy_ofMantissaAndAccuracy (m : Nat) (a : Accuracy) :
    (ExtendedMantissa.ofMantissaAndAccuracy m a).accuracy = a := by
  cases a with
  | exact => rfl
  | inexact o => cases o <;> rfl

private theorem mantissa_ofMantissaAndAccuracy (m : Nat) (a : Accuracy) :
    (ExtendedMantissa.ofMantissaAndAccuracy m a).mantissa = m := by
  cases a with
  | exact => rfl
  | inexact o => cases o <;> rfl

/-- Rounding what is kept of a quotient is rounding the quotient. -/
theorem roundedMantissa_residue (n : Nat) {d : Nat} (hd : 0 < d) :
    (residue n d).roundedMantissa = Fraction.round .toEven ⟨n, d⟩ := by
  unfold ExtendedMantissa.roundedMantissa residue
  rw [accuracy_ofMantissaAndAccuracy, mantissa_ofMantissaAndAccuracy]
  simp only [accuracyOfFraction, Fraction.round]
  cases hc : compare (2 * (n % d)) d with
  | lt =>
      have h := Nat.compare_eq_lt.mp hc
      rw [if_pos h]
      split <;> rfl
  | eq =>
      have h := Nat.compare_eq_eq.mp hc
      rw [if_neg (by omega), if_neg (by omega), if_neg (by omega)]
      split
      · next heven => simp [Accuracy.roundToNearestEven, heven]
      · next hodd => simp only [Accuracy.roundToNearestEven]; omega
  | gt =>
      have h := Nat.compare_eq_gt.mp hc
      rw [if_neg (by omega), if_neg (by omega), if_pos h]
      rfl

-- ========================================================= the nearest

/-- A quotient at most a half away from a number rounds to it, if it is
less than a half away or the number is even. -/
theorem Fraction.round_toEven_eq {n d m : Nat} (hd : 0 < d)
    (hlow : 2 * (d * m) ≤ 2 * n + d) (hhigh : 2 * n ≤ 2 * (d * m) + d)
    (hinside : m % 2 = 1 → 2 * (d * m) < 2 * n + d ∧ 2 * n < 2 * (d * m) + d) :
    Fraction.round .toEven ⟨n, d⟩ = m := by
  have hsplit := Nat.div_add_mod n d
  have hrest := Nat.mod_lt n hd
  have hle : n / d ≤ m := by
    by_contra h
    have hmore := Nat.mul_le_mul_left d (show m + 1 ≤ n / d by omega)
    rw [Nat.mul_add] at hmore
    omega
  have hge : m ≤ n / d + 1 := by
    by_contra h
    have hless := Nat.mul_le_mul_left d (show n / d + 2 ≤ m by omega)
    rw [Nat.mul_add] at hless
    omega
  unfold Fraction.round
  obtain h | h : m = n / d ∨ m = n / d + 1 := by omega
  · subst h
    dsimp only
    split
    · rfl
    split
    · omega
    split
    · rfl
    · omega
  · subst h
    rw [Nat.mul_add] at hlow hhigh hinside
    dsimp only
    split
    · omega
    split
    · rfl
    split
    · omega
    · rfl

/-- A whole number that is nearest to a rational is what the rational is
rounded to, with ties going to the even one. -/
theorem Fraction.round_toEven_of_near {n d m : Nat} (hd : 0 < d) {y : ℚ}
    (hy : y = n / d) (hlow : (m : ℚ) - 1 / 2 ≤ y) (hhigh : y ≤ m + 1 / 2)
    (hinside : m % 2 = 1 → (m : ℚ) - 1 / 2 < y ∧ y < m + 1 / 2) :
    Fraction.round .toEven ⟨n, d⟩ = m := by
  have hpos : (0 : ℚ) < d := by exact_mod_cast hd
  subst hy
  refine round_toEven_eq hd ?_ ?_ fun hodd => ⟨?_, ?_⟩
  · rw [le_div_iff₀ hpos] at hlow
    have : (2 * (d * m) : ℚ) ≤ 2 * n + d := by linarith
    exact_mod_cast this
  · rw [div_le_iff₀ hpos] at hhigh
    have : (2 * n : ℚ) ≤ 2 * (d * m) + d := by linarith
    exact_mod_cast this
  · have h := (hinside hodd).1
    rw [lt_div_iff₀ hpos] at h
    have : (2 * (d * m) : ℚ) < 2 * n + d := by linarith
    exact_mod_cast this
  · have h := (hinside hodd).2
    rw [div_lt_iff₀ hpos] at h
    have : (2 * n : ℚ) < 2 * (d * m) + d := by linarith
    exact_mod_cast this

-- ============================================================ exponents

/-- The exponent that a number is rounded to leaves 53 bits, but is never below
the least one. -/
theorem targetExponent_eq (m : Nat) (e : Int) :
    Format.binary64.targetExponent (totalExponent m e)
      = max ((m.log2 : Int) + e - 52) (-1074) := by
  simp only [Format.targetExponent, totalExponent, Format.mantissaBits,
    Format.minExponent]
  norm_num
  omega

/-- A quotient lies between the powers of two that its whole part names;
if that is zero, only below the upper one. -/
theorem quotient_lt_two_zpow {n d : Nat} (hd : 0 < d) (e : Int) :
    (n / d : ℚ) * 2 ^ e < 2 ^ (((n / d).log2 : Int) + e + 1) := by
  have hfloor : n < d * 2 ^ ((n / d).log2 + 1) := by
    have h : n / d < 2 ^ ((n / d).log2 + 1) := Nat.lt_log2_self
    rwa [Nat.div_lt_iff_lt_mul hd, Nat.mul_comm] at h
  have hpos : (0 : ℚ) < d := by exact_mod_cast hd
  have hquotient : (n / d : ℚ) < 2 ^ ((n / d).log2 + 1) := by
    rw [div_lt_iff₀' hpos]
    exact_mod_cast hfloor
  calc (n / d : ℚ) * 2 ^ e < 2 ^ ((n / d).log2 + 1) * 2 ^ e := by gcongr
    _ = 2 ^ (((n / d).log2 : Int) + e + 1) := by
      rw [← zpow_natCast, ← zpow_add₀ (by norm_num)]
      push_cast
      ring_nf

private theorem two_zpow_le_quotient {n d : Nat} (hd : 0 < d) (h : n / d ≠ 0)
    (e : Int) :
    (2 : ℚ) ^ (((n / d).log2 : Int) + e) ≤ n / d * 2 ^ e := by
  have hfloor : d * 2 ^ (n / d).log2 ≤ n := by
    have hle : 2 ^ (n / d).log2 ≤ n / d := Nat.log2_self_le h
    rwa [Nat.le_div_iff_mul_le hd, Nat.mul_comm] at hle
  have hpos : (0 : ℚ) < d := by exact_mod_cast hd
  have hquotient : (2 : ℚ) ^ (n / d).log2 ≤ n / d := by
    rw [le_div_iff₀' hpos]
    exact_mod_cast hfloor
  calc (2 : ℚ) ^ (((n / d).log2 : Int) + e) = 2 ^ (n / d).log2 * 2 ^ e := by
        rw [zpow_add₀ (by norm_num), zpow_natCast]
    _ ≤ n / d * 2 ^ e := by gcongr

namespace Dyadic

variable {d : Dyadic} {x : ℚ}

/-- What rounds to a dyadic is below the power of two above it, for whatever
reaches that power rounds to it. -/
theorem Attracts.lt (hd : d.Canonical) (hx : d.Attracts x) :
    x < 2 ^ (d.exponent + 53) := by
  have hsmall : (d.significand : ℚ) + 1 ≤ 2 ^ 53 := by exact_mod_cast hd.small
  calc x ≤ d.highEnd := hx.high
    _ < 2 ^ 55 * 2 ^ (d.exponent - 2) := by
      unfold highEnd
      gcongr
      linarith
    _ = 2 ^ (d.exponent + 53) := (two_zpow_add d.exponent 53).symm

/-- What rounds to a dyadic of 53 bits is not below the power of two with
as many, except near the dyadic that is that power. -/
theorem Attracts.le (hx : d.Attracts x) (hfull : 2 ^ 52 < d.significand) :
    2 ^ (d.exponent + 52) ≤ x := by
  have hbelow : (d.below : ℚ) ≤ 2 := by exact_mod_cast d.below_le
  have hmore : (2 : ℚ) ^ 52 + 1 ≤ d.significand := by exact_mod_cast hfull
  calc (2 : ℚ) ^ (d.exponent + 52) = 2 ^ 54 * 2 ^ (d.exponent - 2) :=
    two_zpow_add d.exponent 52
    _ ≤ d.lowEnd := by
      unfold lowEnd
      gcongr
      linarith
    _ ≤ x := hx.low

/-- What rounds to a dyadic with a full significand is not below half the power
of two under it. So there are two exponents that it may have. -/
theorem Attracts.half_le (hx : d.Attracts x) (hfull : 2 ^ 52 ≤ d.significand) :
    2 ^ (d.exponent + 51) ≤ x := by
  have hbelow : (d.below : ℚ) ≤ 2 := by exact_mod_cast d.below_le
  have hmore : (2 : ℚ) ^ 52 ≤ d.significand := by exact_mod_cast hfull
  calc (2 : ℚ) ^ (d.exponent + 51) = 2 ^ 53 * 2 ^ (d.exponent - 2) :=
    two_zpow_add d.exponent 51
    _ ≤ d.lowEnd := by
      unfold lowEnd
      gcongr
      linarith
    _ ≤ x := hx.low

/-- In units of the last place, the dyadic is the nearest whole number. -/
theorem Attracts.near (hx : d.Attracts x) :
    (d.significand : ℚ) - 1 / 2 ≤ x / 2 ^ d.exponent
      ∧ x / 2 ^ d.exponent ≤ d.significand + 1 / 2
      ∧ (d.significand % 2 = 1 →
        (d.significand : ℚ) - 1 / 2 < x / 2 ^ d.exponent
          ∧ x / 2 ^ d.exponent < d.significand + 1 / 2) := by
  have hunit := two_zpow_unit d.exponent
  have hpos : (0 : ℚ) < 2 ^ d.exponent := by positivity
  have hlow : ((d.significand : ℚ) - 1 / 2) * 2 ^ d.exponent ≤ d.lowEnd := by
    have hbelow : (d.below : ℚ) ≤ 2 := by exact_mod_cast d.below_le
    rw [hunit, lowEnd]
    nlinarith [hpos]
  have hhigh : ((d.significand : ℚ) + 1 / 2) * 2 ^ d.exponent = d.highEnd := by
    rw [hunit, highEnd]
    ring
  refine ⟨?_, ?_, fun hodd => ⟨?_, ?_⟩⟩
  · rw [le_div_iff₀ hpos]
    exact hlow.trans hx.low
  · rw [div_le_iff₀ hpos, hhigh]
    exact hx.high
  · rw [lt_div_iff₀ hpos]
    exact hlow.trans_lt (hx.inside hodd).1
  · rw [div_lt_iff₀ hpos, hhigh]
    exact (hx.inside hodd).2

/-- Just below a power of two, units are half as wide. This is the one case in
which rounding carries. -/
theorem Attracts.near_power (hx : d.Attracts x)
    (hpower : d.significand = 2 ^ 52) (hleast : -1074 < d.exponent)
    (hlt : x < 2 ^ (d.exponent + 52)) :
    (2 : ℚ) ^ 53 - 1 / 2 ≤ x / 2 ^ (d.exponent - 1) ∧
      x / 2 ^ (d.exponent - 1) ≤ 2 ^ 53 := by
  have hunit : (2 : ℚ) ^ (d.exponent - 1) = 2 * 2 ^ (d.exponent - 2) := by
    rw [← zpow_one_add₀ (by norm_num)]
    ring_nf
  have hpos : (0 : ℚ) < 2 ^ (d.exponent - 1) := by positivity
  have hlow : d.lowEnd = (2 ^ 53 - 1 / 2) * 2 ^ (d.exponent - 1) := by
    have hbelow : d.below = 1 := if_pos ⟨hpower, hleast⟩
    rw [hunit, lowEnd, hbelow, hpower]
    push_cast
    ring
  refine ⟨?_, ?_⟩
  · rw [le_div_iff₀ hpos, ← hlow]
    exact hx.low
  · rw [div_le_iff₀ hpos, hunit]
    have := two_zpow_add d.exponent 52
    push_cast at this
    linarith

/-- The exponent at which a quotient is rounded: that of the dyadic, or one
less just below a power of two. -/
theorem Attracts.exponent_cases {n q : Nat} {e : Int} (hd : d.Canonical)
    (hq : 0 < q) (hx : d.Attracts (n / q * 2 ^ e))
    (he : e ≤ Format.binary64.targetExponent (totalExponent (n / q) e)) :
    Format.binary64.targetExponent (totalExponent (n / q) e) = d.exponent
      ∨ Format.binary64.targetExponent (totalExponent (n / q) e)
        = d.exponent - 1
        ∧ d.significand = 2 ^ 52 ∧ -1074 < d.exponent
        ∧ (n / q * 2 ^ e : ℚ) < 2 ^ (d.exponent + 52) := by
  rw [targetExponent_eq] at he ⊢
  have hupper := quotient_lt_two_zpow (n := n) hq e
  have hlower : n / q ≠ 0 → ((n / q).log2 : Int) + e < d.exponent + 53 :=
    fun h =>
    (zpow_lt_zpow_iff_right₀ (by norm_num : (1 : ℚ) < 2)).mp
      ((two_zpow_le_quotient hq h e).trans_lt (hx.lt hd))
  have hempty : n / q = 0 → (n / q).log2 = 0 := fun h => by rw [h]; rfl
  have hleast := hd.least
  by_cases hexponent : d.exponent = -1074
  · left
    omega
  have hfull : 2 ^ 52 ≤ d.significand := hd.full.resolve_right hexponent
  have hhalf : d.exponent + 51 < ((n / q).log2 : Int) + e + 1 :=
    (zpow_lt_zpow_iff_right₀ (by norm_num : (1 : ℚ) < 2)).mp
      ((hx.half_le hfull).trans_lt hupper)
  by_cases hexact : ((n / q).log2 : Int) + e = d.exponent + 52
  · left
    omega
  · have hlast : ((n / q).log2 : Int) + e + 1 = d.exponent + 52 := by omega
    rw [hlast] at hupper
    have hpower : ¬2 ^ 52 < d.significand :=
      fun h => absurd (hx.le h) (not_le.mpr hupper)
    exact .inr ⟨by omega, by omega, by omega, hupper⟩

end Dyadic

-- ============================================================= rounding

private theorem shiftToTargetExponent_self {m : Nat} {e : Int}
    (hm : m < 2 ^ 53) (he : -1074 ≤ e) :
    shiftToTargetExponent Format.binary64 m e .exact
      = (⟨m, false, false⟩, e) := by
  have hlog : m.log2 ≤ 52 := by
    by_cases h : m = 0
    · simp [h]
    · have := (Nat.log2_lt h).mpr hm
      omega
  have htarget := targetExponent_eq m e
  have hshift : (Format.binary64.targetExponent (totalExponent m e) - e).toNat
      = 0 := by omega
  simp only [shiftToTargetExponent, shiftToExponent, hshift]
  exact Prod.ext rfl (Int.add_zero e)

/-- A significand that was rounded up to 54 bits loses the last one, which is a
zero. -/
theorem shiftToTargetExponent_carry {e : Int} (he : -1074 ≤ e) :
    shiftToTargetExponent Format.binary64 (2 ^ 53) e .exact
      = (⟨2 ^ 52, false, false⟩, e + 1) := by
  have hlog : (2 ^ 53 : Nat).log2 = 53 := Nat.log2_two_pow
  have htarget := targetExponent_eq (2 ^ 53) e
  have hshift :
      (Format.binary64.targetExponent (totalExponent (2 ^ 53) e) - e).toNat
        = 1 := by
    omega
  simp only [shiftToTargetExponent, shiftToExponent, hshift]
  rfl

/-- The first rounding is of the quotient, in units of the exponent it is
brought to. -/
theorem shiftToTargetExponent_residue (n : Nat) {q : Nat} (hq : 0 < q)
    {e : Int} {k : Nat}
    (ht : Format.binary64.targetExponent (totalExponent (n / q) e) = e + k) :
    shiftToTargetExponent Format.binary64 (n / q) e
      (accuracyOfFraction (n % q) q)
      = (residue n (2 ^ k * q), e + k) := by
  have hshift : (e + k - e).toNat = k := by omega
  simp only [shiftToTargetExponent, shiftToExponent, ht, hshift]
  exact Prod.ext (shiftRight_residue n hq k) rfl

private theorem quotient_in_units (n : Nat) {q : Nat} (hq : 0 < q) (e : Int)
    (k : Nat) :
    (n / q * 2 ^ e / 2 ^ (e + k) : ℚ) = n / (2 ^ k * q : Nat) := by
  have hpos : (0 : ℚ) < q := by exact_mod_cast hq
  rw [zpow_add₀ (by norm_num), zpow_natCast]
  push_cast
  field_simp

/-- A quotient in the interval of a number rounds to the number. Every
statement about rounding in the project comes from this one. -/
theorem roundWithAccuracy_eq {d : Dyadic} (hd : d.Canonical) (s : Sign)
    {n q : Nat} (hq : 0 < q) {e : Int} (hx : d.Attracts (n / q * 2 ^ e))
    (he : e ≤ Format.binary64.targetExponent (totalExponent (n / q) e)) :
    roundWithAccuracy Format.binary64 s (n / q) e
      (accuracyOfFraction (n % q) q)
      = .finite s d.significand d.exponent hd.pos := by
  obtain ⟨k, hk⟩ := Int.eq_ofNat_of_zero_le (Int.sub_nonneg_of_le he)
  have ht : Format.binary64.targetExponent (totalExponent (n / q) e)
      = e + k := by omega
  have hpos : 0 < 2 ^ k * q := by positivity
  have hunits := quotient_in_units n hq e k
  have hfirst := shiftToTargetExponent_residue n hq ht
  have hround := roundedMantissa_residue n hpos
  unfold roundWithAccuracy
  rw [hfirst]
  dsimp only
  rw [hround]
  obtain hexponent | ⟨hexponent, hpower, hleast, hlt⟩ :=
    hx.exponent_cases hd hq he
  · -- the exponent is that of the number
    have hsame : e + k = d.exponent := by omega
    obtain ⟨hlow, hhigh, hinside⟩ := hx.near
    rw [hsame] at hunits
    rw [Fraction.round_toEven_of_near hpos hunits hlow hhigh hinside, hsame,
      shiftToTargetExponent_self hd.small hd.least]
    exact dif_neg hd.pos.ne'
  · -- just below a power of two the rounding carries
    have hsame : e + k = d.exponent - 1 := by omega
    obtain ⟨hlow, hhigh⟩ := hx.near_power hpower hleast hlt
    rw [hsame] at hunits
    have hcarry : Fraction.round .toEven ⟨n, 2 ^ k * q⟩ = 2 ^ 53 := by
      refine Fraction.round_toEven_of_near hpos hunits ?_ ?_ fun h => ?_
      · exact_mod_cast hlow
      · push_cast
        linarith
      · norm_num at h
    rw [hcarry, hsame, shiftToTargetExponent_carry (by omega)]
    simp [hpower]

/-- A whole number has nothing behind it to keep, so the law of quotients
applies to it with the divisor one. -/
theorem roundWithAccuracy_whole {d : Dyadic} (hd : d.Canonical) (s : Sign)
    {n : Nat} {e : Int} (hx : d.Attracts (n * 2 ^ e))
    (he : e ≤ Format.binary64.targetExponent (totalExponent n e)) :
    roundWithAccuracy Format.binary64 s n e .exact
      = .finite s d.significand d.exponent hd.pos := by
  have hround :=
    @roundWithAccuracy_eq d hd s n 1 Nat.one_pos e (by simpa using hx)
    (by rwa [Nat.div_one])
  rwa [Nat.div_one, Nat.mod_one] at hround

-- =========================================================== operations

/-- A whole significand of 53 bits is long enough to be rounded. -/
theorem le_targetExponent {m : Nat} {e : Int} (h : 2 ^ 52 ≤ m ∨ e ≤ -1074) :
    e ≤ Format.binary64.targetExponent (totalExponent m e) := by
  rw [targetExponent_eq]
  cases h with
  | inl h =>
      have hlog : 52 ≤ m.log2 := (Nat.le_log2 (by omega)).mpr h
      omega
  | inr h => omega

/-- Of a product in the interval of a number the number comes out. -/
theorem mul_eq {d : Dyadic} (hd : d.Canonical) {m₁ m₂ : Nat} {e₁ e₂ : Int}
    (h₁ : 0 < m₁) (h₂ : 0 < m₂) (hx : d.Attracts (m₁ * 2 ^ e₁ * (m₂ * 2 ^ e₂)))
    (hlong : 2 ^ 52 ≤ m₁ * m₂) :
    mul Format.binary64 (.finite .positive m₁ e₁ h₁)
      (.finite .positive m₂ e₂ h₂)
      = .finite .positive d.significand d.exponent hd.pos := by
  have hvalue : (m₁ * 2 ^ e₁ * (m₂ * 2 ^ e₂) : ℚ)
      = (m₁ * m₂ : Nat) * 2 ^ (e₁ + e₂) := by
    rw [zpow_add₀ (by norm_num)]
    push_cast
    ring
  rw [hvalue] at hx
  exact roundWithAccuracy_whole hd .positive hx
    (le_targetExponent (.inl hlong))

/-- A division is shifted until its quotient has 53 bits, so that the two bits
that are kept of the rest suffice. -/
theorem two_pow_le_quotient {m₁ m₂ k : Nat} (h₁ : 0 < m₁) (h₂ : 0 < m₂)
    (h : m₂.log2 + 53 ≤ m₁.log2 + k) : 2 ^ 52 ≤ m₁ * 2 ^ k / m₂ := by
  rw [Nat.le_div_iff_mul_le h₂]
  calc 2 ^ 52 * m₂ ≤ 2 ^ 52 * 2 ^ (m₂.log2 + 1) :=
    Nat.mul_le_mul_left _ Nat.lt_log2_self.le
    _ = 2 ^ (m₂.log2 + 53) := by ring
    _ ≤ 2 ^ (m₁.log2 + k) := Nat.pow_le_pow_right (by omega) h
    _ = 2 ^ m₁.log2 * 2 ^ k := by ring
    _ ≤ m₁ * 2 ^ k := Nat.mul_le_mul_right _ (Nat.log2_self_le h₁.ne')

/-- Of a quotient in the interval of a number the number comes out. -/
theorem div_eq {d : Dyadic} (hd : d.Canonical) {m₁ m₂ : Nat} {e₁ e₂ : Int}
    (h₁ : 0 < m₁) (h₂ : 0 < m₂)
    (hx : d.Attracts (m₁ * 2 ^ e₁ / (m₂ * 2 ^ e₂))) :
    UnpackedFloat.div Format.binary64 (.finite .positive m₁ e₁ h₁)
      (.finite .positive m₂ e₂ h₂)
      = .finite .positive d.significand d.exponent hd.pos := by
  unfold UnpackedFloat.div divCore
  dsimp only
  have htarget : Format.binary64.targetExponent
      (totalExponent m₁ e₁ - totalExponent m₂ e₂)
      = max ((m₁.log2 : Int) + e₁ - m₂.log2 - e₂ - 53) (-1074) := by
    simp only [Format.targetExponent, totalExponent, Format.mantissaBits,
      Format.minExponent]
    norm_num
    omega
  rw [htarget]
  obtain ⟨k, hk⟩ : ∃ k : Nat, e₁ - e₂
      - min (e₁ - e₂) (max ((m₁.log2 : Int) + e₁ - m₂.log2 - e₂ - 53) (-1074))
        = k :=
    Int.eq_ofNat_of_zero_le (by omega)
  rw [hk, Int.toNat_natCast, Nat.shiftLeft_eq]
  generalize ht : min (e₁ - e₂)
    (max ((m₁.log2 : Int) + e₁ - m₂.log2 - e₂ - 53) (-1074)) = t at hk ⊢
  have hvalue : (m₁ * 2 ^ e₁ / (m₂ * 2 ^ e₂) : ℚ)
      = (m₁ * 2 ^ k : Nat) / m₂ * 2 ^ t := by
    have he : e₁ = t + k + e₂ := by omega
    rw [he, zpow_add₀ (by norm_num), zpow_add₀ (by norm_num), zpow_natCast]
    have hpos : (0 : ℚ) < m₂ := by exact_mod_cast h₂
    push_cast
    field_simp
  rw [hvalue] at hx
  refine roundWithAccuracy_eq hd _ h₂ hx (le_targetExponent ?_)
  by_cases hlong : m₂.log2 + 53 ≤ m₁.log2 + k
  · exact .inl (two_pow_le_quotient h₁ h₂ hlong)
  · right
    omega

end KnnOracle.Decimal
