/-
The shortest decimal of a number reads back as the number.

A grid point is taken only if it lies in the number's interval
(`attracts_of_contains`), so whatever the walk over the grids ends with
reads back. It ends with something: it starts above the number
(`finest_le_ceiling`), and on the finest grid it can reach, the number is
a grid point itself (`onGrid_finest`). So the digits that the walk finds
are not zero and read back, however ties are broken
(`signedNearest_shortest`).
-/
import Mathlib
import KnnOracle.Decimal.Shortest
import KnnOracle.Proofs.Decimal.Nearest

namespace KnnOracle.Decimal

variable {d : Dyadic}

-- ========================================================= grid points

/-- The ends of the interval are kept as whole numbers over one unit, and this
is no division by zero. -/
private theorem unit_pos (d : Dyadic) : 0 < d.neighbourhood.unit := by
  unfold Dyadic.neighbourhood
  positivity

private theorem quarter_eq (d : Dyadic) :
    (2 : ℚ) ^ (d.exponent - 2)
      = 2 ^ (d.exponent - 2).toNat / d.neighbourhood.unit := by
  have hneg : -(d.exponent - 2) = 2 - d.exponent := by omega
  rw [zpow_eq_div (by norm_num), hneg]
  simp [Dyadic.neighbourhood]

private theorem lowEnd_eq (hpos : 0 < d.significand) :
    d.lowEnd = (d.neighbourhood.low : ℚ) / d.neighbourhood.unit := by
  have hle : d.below ≤ 4 * d.significand := d.below_le.trans (by omega)
  have hlow : d.neighbourhood.low
    = (4 * d.significand - d.below) * 2 ^ (d.exponent - 2).toNat := rfl
  rw [Dyadic.lowEnd, quarter_eq, hlow]
  push_cast [hle]
  ring

private theorem highEnd_eq (d : Dyadic) :
    d.highEnd = (d.neighbourhood.high : ℚ) / d.neighbourhood.unit := by
  have hhigh : d.neighbourhood.high
    = (4 * d.significand + 2) * 2 ^ (d.exponent - 2).toNat := rfl
  rw [Dyadic.highEnd, quarter_eq, hhigh]
  push_cast
  ring

/-- A grid point as a fraction over the interval's unit. -/
theorem point_eq (d : Dyadic) (scale : ℤ) (c : Nat) :
    (c * 10 ^ scale : ℚ) = (c * 10 ^ scale.toNat * d.neighbourhood.unit : Nat)
      / (10 ^ (-scale).toNat : Nat) / d.neighbourhood.unit := by
  have hunit : (0 : ℚ) < d.neighbourhood.unit := by exact_mod_cast unit_pos d
  rw [zpow_eq_div (by norm_num)]
  push_cast
  field_simp

/-- A grid point in the interval reads back. The search compares whole numbers,
and the interval is one of rationals. -/
theorem attracts_of_contains (hpos : 0 < d.significand) {scale : ℤ} {c : Nat}
    (h : d.neighbourhood.contains scale c = true) :
    0 < c ∧ d.Attracts (c * 10 ^ scale) := by
  have hunit : (0 : ℚ) < d.neighbourhood.unit := by exact_mod_cast unit_pos d
  have hstretch : (0 : ℚ) < (10 ^ (-scale).toNat : Nat) := by positivity
  have hclosed : d.neighbourhood.closed = decide (d.significand % 2 = 0) := rfl
  unfold Neighbourhood.contains at h
  rw [hclosed] at h
  generalize hp : c * 10 ^ scale.toNat * d.neighbourhood.unit = point at h
  have hpoint := point_eq d scale c
  rw [hp] at hpoint
  simp only [Bool.and_eq_true, decide_eq_true_eq] at h
  obtain ⟨hne, h⟩ := h
  refine ⟨Nat.pos_of_ne_zero hne, ?_⟩
  rw [hpoint]
  split at h
  · next heven =>
      simp only [Bool.and_eq_true, decide_eq_true_eq] at h
      refine ⟨?_, ?_, fun hodd => by omega⟩
      · rw [lowEnd_eq hpos]
        gcongr
        rw [le_div_iff₀ hstretch]
        exact_mod_cast h.1
      · rw [highEnd_eq]
        gcongr
        rw [div_le_iff₀ hstretch]
        exact_mod_cast h.2
  · simp only [Bool.and_eq_true, decide_eq_true_eq] at h
    have hlow : d.lowEnd < point / (10 ^ (-scale).toNat : Nat)
        / d.neighbourhood.unit := by
      rw [lowEnd_eq hpos]
      gcongr
      rw [lt_div_iff₀ hstretch]
      exact_mod_cast h.1
    have hhigh : point / (10 ^ (-scale).toNat : Nat) / d.neighbourhood.unit
        < d.highEnd := by
      rw [highEnd_eq]
      gcongr
      rw [div_lt_iff₀ hstretch]
      exact_mod_cast h.2
    exact ⟨hlow.le, hhigh.le, fun _ => ⟨hlow, hhigh⟩⟩

-- ============================================================ the walk

namespace Neighbourhood

variable {n : Neighbourhood} {tie : Tie} {scale : ℤ} {c : Nat}

/-- Rounding to the grid takes one of the two neighbours, whichever way ties
are broken. -/
private theorem round_cases (tie : Tie) (f : Fraction) :
    f.round tie = f.numerator / f.denominator ∨
      f.round tie = f.numerator / f.denominator + 1 := by
  unfold Fraction.round
  dsimp only
  split
  · exact .inl rfl
  split
  · exact .inr rfl
  split
  · exact .inr rfl
  split
  · exact .inl rfl
  · exact .inr rfl

/-- What is taken of a grid lies in the interval, so the search never gives a
decimal that is read as another number. -/
theorem contains_of_onGrid (h : n.onGrid tie scale = some c) :
    n.contains scale c = true := by
  unfold onGrid at h
  dsimp only at h
  split at h
  · next hunder hover =>
      cases h
      cases round_cases tie (Fraction.unscale ⟨n.value, n.unit⟩ scale) with
      | inl hround => rw [hround, hunder]
      | inr hround => rw [hround, hover]
  · next hunder _ =>
      cases h
      exact hunder
  · next _ hover =>
      cases h
      exact hover
  · cases h

/-- The walk ends with nothing but grid points of the interval, which is what
makes its result read back. -/
private theorem contains_of_firstGrid {steps : Nat} {start : ℤ} {s : Digits}
    (h : n.firstGrid tie steps start = some s) :
    n.contains s.scale s.coefficient = true := by
  induction steps generalizing start with
  | zero => cases h
  | succ steps ih =>
      unfold firstGrid at h
      split at h
      · next c hc =>
          cases h
          exact contains_of_onGrid hc
      · exact ih h

/-- The walk ends where a grid has a point, so it is enough to know one such
grid. -/
theorem firstGrid_isSome {steps : Nat} {start : ℤ} (hle : scale ≤ start)
    (hlt : start - scale < steps) (h : (n.onGrid tie scale).isSome = true) :
    (n.firstGrid tie steps start).isSome = true := by
  induction steps generalizing start with
  | zero => omega
  | succ steps ih =>
      unfold firstGrid
      split
      · rfl
      · next hnone =>
          have hne : scale ≠ start := fun heq => by
            rw [heq, hnone] at h
            cases h
          exact ih (by omega) (by omega)

end Neighbourhood

-- ================================================================ its end

/-- The finest grid on which a dyadic may have to be looked for. -/
def Dyadic.finest (d : Dyadic) : ℤ := min (d.exponent - 2) 0

/-- On the finest grid the unit divides the step, so that the number is a grid
point there. -/
private theorem unit_dvd (d : Dyadic) :
    d.neighbourhood.unit ∣ 10 ^ (-d.finest).toNat := by
  have hunit : d.neighbourhood.unit = 2 ^ (2 - d.exponent).toNat := rfl
  have hexponent : (2 - d.exponent).toNat = (-d.finest).toNat := by
    unfold Dyadic.finest
    omega
  rw [hunit, hexponent]
  exact pow_dvd_pow_of_dvd (by norm_num) _

private theorem neighbourhood_strict (hpos : 0 < d.significand) :
    d.neighbourhood.low < d.neighbourhood.value ∧
      d.neighbourhood.value < d.neighbourhood.high := by
  have hbelow : 0 < d.below ∧ d.below ≤ 2 := by
    unfold Dyadic.below
    split <;> omega
  have hstretch : 0 < 2 ^ (d.exponent - 2).toNat := by positivity
  exact ⟨Nat.mul_lt_mul_of_pos_right
    (show 4 * d.significand - d.below < 4 * d.significand by omega)
      hstretch,
    Nat.mul_lt_mul_of_pos_right
      (show 4 * d.significand < 4 * d.significand + 2 by omega) hstretch⟩

/-- On the finest grid the number itself is a point, so the walk ends there at
the latest. -/
theorem onGrid_finest (hpos : 0 < d.significand) (tie : Tie) :
    (d.neighbourhood.onGrid tie d.finest).isSome = true := by
  have hscale : d.finest.toNat = 0 := by
    unfold Dyadic.finest
    omega
  obtain ⟨w, hw⟩ := (unit_dvd d).mul_left d.neighbourhood.value
  obtain ⟨hlow, hhigh⟩ := neighbourhood_strict hpos
  have hunit := unit_pos d
  have hunder :
      (Fraction.unscale ⟨d.neighbourhood.value, d.neighbourhood.unit⟩
        d.finest).numerator
      / (Fraction.unscale ⟨d.neighbourhood.value, d.neighbourhood.unit⟩
        d.finest).denominator
      = w := by
    unfold Fraction.unscale
    split
    · next h =>
        have hzero : (-d.finest).toNat = 0 := by omega
        rw [hzero, pow_zero, mul_one] at hw
        rw [hscale, pow_zero, mul_one, hw]
        exact Nat.mul_div_cancel_left w hunit
    · rw [hw]
      exact Nat.mul_div_cancel_left w hunit
  have hcontains : d.neighbourhood.contains d.finest w = true := by
    have hpoint : w * 10 ^ d.finest.toNat * d.neighbourhood.unit
        = d.neighbourhood.value * 10 ^ (-d.finest).toNat := by
      rw [hscale, pow_zero, mul_one, hw, Nat.mul_comm]
    have hne : w ≠ 0 := fun h => by
      have : 0 < d.neighbourhood.value * 10 ^ (-d.finest).toNat :=
        Nat.mul_pos (by omega) (by positivity)
      rw [hw, h] at this
      omega
    have hstretch : 0 < 10 ^ (-d.finest).toNat := by positivity
    have hleft := Nat.mul_lt_mul_of_pos_right hlow hstretch
    have hright := Nat.mul_lt_mul_of_pos_right hhigh hstretch
    unfold Neighbourhood.contains
    rw [hpoint]
    split
    · simp [hne, hleft.le, hright.le]
    · simp [hne, hleft, hright]
  unfold Neighbourhood.onGrid
  dsimp only
  rw [hunder, hcontains]
  cases d.neighbourhood.contains d.finest (w + 1) <;> rfl

/-- The walk starts where the number is, or above. -/
theorem finest_le_ceiling (d : Dyadic) : d.finest ≤ d.toFraction.ceiling := by
  have hden : (2 ^ (-d.exponent).toNat).log2 = (-d.exponent).toNat :=
    Nat.log2_two_pow
  unfold Dyadic.finest Dyadic.toFraction Fraction.ceiling
  split
  · have hone : (1 : Nat).log2 = 0 := rfl
    dsimp only
    rw [hone]
    split <;> omega
  · dsimp only
    rw [hden]
    split <;> omega

/-- The shortest decimal lies in the interval. Nothing about shortness is used,
as reading back asks for the interval only. -/
theorem shortest_attracts (hpos : 0 < d.significand) (tie : Tie) :
    0 < (d.shortest tie).coefficient
      ∧ d.Attracts
        ((d.shortest tie).coefficient * 10 ^ (d.shortest tie).scale) := by
  have hle := finest_le_ceiling d
  have hsteps : d.toFraction.ceiling - d.finest
      < (d.toFraction.ceiling - d.finest + 1).toNat := by
    omega
  have hsome :=
    Neighbourhood.firstGrid_isSome hle hsteps (onGrid_finest hpos tie)
  obtain ⟨s, hs⟩ := Option.isSome_iff_exists.mp hsome
  have hshortest : d.shortest tie = s := by
    unfold Dyadic.shortest
    exact congrArg (Option.getD · _) hs
  rw [hshortest]
  exact attracts_of_contains hpos (Neighbourhood.contains_of_firstGrid hs)

/-- The shortest decimal of a number reads back as the number. This is what
makes writing floats as text lossless. -/
theorem signedNearest_shortest {x : Float}
    (h : Magnitude.ofFloat x = .finite d) (hpos : 0 < d.significand)
    (tie : Tie) :
    signedNearest (isNegative x) (d.shortest tie).coefficient
      (d.shortest tie).scale = x := by
  obtain ⟨hc, hx⟩ := shortest_attracts hpos tie
  exact signedNearest_eq h hpos hc hx

end KnnOracle.Decimal
