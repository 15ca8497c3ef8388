/-
Uniform numbers.

A draw is 52 random bits, as the fraction of a number in [1, 2). Nothing is
rounded on the way from there: one is taken, and what is left is the bits in
units of 2⁻⁵² (`exists_unit`); twice that less one is again a whole number of
units, twice as large (`exists_signed`). So no draw has to be rejected, and
every component that is drawn is in [-1, 1) (`signed_bounds`).
-/
import Mathlib
import KnnOracle.Random.Draw
import KnnOracle.Proofs.Comparison.Extremes
import KnnOracle.Proofs.Decimal.Exact

namespace KnnOracle

open Decimal Float.Model Float.Model.UnpackedFloat

-- ============================================================== the values

variable {x : Float} {d : Decimal.Dyadic}

/-- A draw is computed from numbers whose sizes are known. Their values are
what the bounds are shown for. -/
private theorem HasSize.hasValue (h : HasSize x d) : HasValue x d.value := by
  obtain ⟨-, -, hpos, hunpack⟩ := h
  rw [HasValue, hunpack, ← positive_apply_value]
  exact .finite _ _ _ hpos

private theorem HasSize.hasValue_neg (h : HasSize x d) :
    HasValue (-x) (-d.value) := by
  rw [HasValue, h.unpack_neg, ← negative_apply_value]
  exact .finite _ _ _ h.1.pos

/-- The constants of the computation are given by their parts, which are found
by evaluating them. -/
private theorem hasSize_one : HasSize 1.0 ⟨2 ^ 52, -52⟩ := by
  have hbits : (1.0 : Float)
      = Float.ofBits (UInt64.ofNat (1023 * 2 ^ 52 + 0)) := by decide
  rw [hbits]
  exact hasSize_ofBits (by decide) (by decide) (by decide)

private theorem hasSize_two : HasSize 2.0 ⟨2 ^ 52, -51⟩ := by
  have hbits : (2.0 : Float)
      = Float.ofBits (UInt64.ofNat (1024 * 2 ^ 52 + 0)) := by decide
  rw [hbits]
  exact hasSize_ofBits (by decide) (by decide) (by decide)

private theorem hasValue_one : HasValue 1.0 1 := by
  have h := hasSize_one.hasValue
  norm_num [Decimal.Dyadic.value] at h
  exact h

private theorem hasValue_neg_one : HasValue (-1.0) (-1) := by
  have h := hasSize_one.hasValue_neg
  norm_num [Decimal.Dyadic.value] at h
  exact h

private theorem hasValue_two : HasValue 2.0 2 := by
  have h := hasSize_two.hasValue
  norm_num [Decimal.Dyadic.value] at h
  exact h

namespace Random

-- =============================================================== the draws

/-- The bits of a draw are those of a number from one on and below two. The
random bits fill the significand, so that subtracting one is exact. -/
theorem unit_bits (bits : UInt64) :
    ∃ fraction < 2 ^ 52, (0x3FF0000000000000 : UInt64) ||| (bits >>> 12)
      = UInt64.ofNat (1023 * 2 ^ 52 + fraction) := by
  refine ⟨bits.toNat / 2 ^ 12, ?_, ?_⟩
  · have := bits.toNat_lt
    omega
  · have hlt : bits.toNat / 2 ^ 12 < 2 ^ 52 := by
      have := bits.toNat_lt
      omega
    apply UInt64.toNat_inj.mp
    rw [UInt64.toNat_or, UInt64.toNat_shiftRight, UInt64.toNat_ofNat_of_lt' (by
      change _ < 2 ^ 64
      omega)]
    have hor := Nat.two_pow_add_eq_or_of_lt hlt 1023
    rw [Nat.mul_comm] at hor
    rw [hor, Nat.shiftRight_eq_div_pow]
    rfl

/-- A draw in [0, 1) is 52 bits behind the point, so that computing with it
stays exact. -/
theorem exists_unit (s : Stream) :
    ∃ bits : Nat, bits < 2 ^ 52 ∧
      HasValue (unit s).1 (bits * 2 ^ (-52 : ℤ)) := by
  obtain ⟨fraction, hlt, hbits⟩ := unit_bits s.doubleWord.1
  obtain ⟨-, -, hpos, hunpack⟩ :=
    @hasSize_ofBits 1023 fraction (by decide) (by decide) hlt
  obtain ⟨-, -, hone, hunpack'⟩ := hasSize_one
  have hrest : Sign.positive.apply (fraction + 2 ^ 52 : Nat)
      - Sign.positive.apply (2 ^ 52 : Nat)
      = (fraction : Int) := by
    show ((fraction + 2 ^ 52 : Nat) : Int) - (2 ^ 52 : Nat) = _
    omega
  have hless : UnpackedFloat.sub Format.binary64
      (.finite .positive (fraction + 2 ^ 52) (-52) hpos)
        (.finite .positive (2 ^ 52) (-52) hone)
      = UnpackedFloat.normalize Format.binary64 fraction (-52) .positive := by
    rw [sub_same_exponent, hrest]
  have hunit : (unit s).1
      = Float.ofBits
        ((0x3FF0000000000000 : UInt64) ||| (s.doubleWord.1 >>> 12)) - 1.0 :=
        rfl
  have hshort : Representable (((fraction : Int) : ℚ) * 2 ^ (-52 : ℤ)) :=
    representable_of_short (by omega) (by norm_num) (by norm_num)
  refine ⟨fraction, hlt, ?_⟩
  rw [hunit, hbits, sub_eq, hunpack, hunpack']
  change IsWorth (Float.Model.pack (UnpackedFloat.sub Format.binary64
    (.finite .positive (fraction + 2 ^ 52) (-52) hpos)
    (.finite .positive (2 ^ 52) (-52) hone))).unpack _
  rw [hless]
  exact isWorth_normalize hshort .positive

/-- No draw is a NaN or infinite, so no component of a synthetic record is. -/
theorem isFinite_unit (s : Stream) : (unit s).1.isFinite = true := by
  obtain ⟨bits, -, hvalue⟩ := exists_unit s
  exact hvalue.isFinite

/-- A draw in [-1, 1) is a whole number of units of the last of 51 bits:
doubling and subtracting one round nothing. -/
theorem exists_signed (s : Stream) :
    ∃ bits : Nat, bits < 2 ^ 52 ∧
      HasValue (signed s).1 (((bits : ℤ) - 2 ^ 51 : ℤ) * 2 ^ (-51 : ℤ)) := by
  obtain ⟨bits, hlt, hunit⟩ := exists_unit s
  have hsigned : (signed s).1 = (unit s).1 * 2.0 + -1.0 := rfl
  have htwice : (bits * 2 ^ (-52 : ℤ) * 2 : ℚ)
      = ((bits : ℤ) : ℚ) * 2 ^ (-51 : ℤ) := by
    norm_num
    ring
  have hless : (bits * 2 ^ (-52 : ℤ) * 2 + -1 : ℚ)
      = (((bits : ℤ) - 2 ^ 51 : ℤ) : ℚ) * 2 ^ (-51 : ℤ) := by
    rw [htwice]
    norm_num
    ring
  refine ⟨bits, hlt, ?_⟩
  rw [hsigned, ← hless]
  refine (hunit.mul hasValue_two ?_).add hasValue_neg_one ?_
  · rw [htwice]
    exact representable_of_short (by omega) (by norm_num) (by norm_num)
  · rw [hless]
    exact representable_of_short (by omega) (by norm_num) (by norm_num)

/-- A component that is drawn is a number in [-1, 1). -/
theorem signed_bounds (s : Stream) :
    (signed s).1.isFinite = true ∧ -1.0 ≤ (signed s).1 ∧
      (signed s).1 < 1.0 := by
  obtain ⟨bits, hlt, hvalue⟩ := exists_signed s
  have hunit : (0 : ℚ) < 2 ^ (-51 : ℤ) := by positivity
  have hone : (2 ^ 51 : ℚ) * 2 ^ (-51 : ℤ) = 1 := by norm_num
  refine ⟨hvalue.isFinite, (hasValue_neg_one.le_iff hvalue).mpr ?_, ?_⟩
  · have hlow : (-2 ^ 51 : ℚ) ≤ ((bits : ℤ) - 2 ^ 51 : ℤ) := by
      push_cast
      linarith [Nat.cast_nonneg (α := ℚ) bits]
    nlinarith
  · rw [← not_not (a := (signed s).1 < 1.0), not_lt_iff_le (by decide)
      (isNaN_of_isFinite hvalue.isFinite), hasValue_one.le_iff hvalue, not_le]
    have hhigh : (((bits : ℤ) - 2 ^ 51 : ℤ) : ℚ) < 2 ^ 51 := by
      have : ((bits : ℤ) - 2 ^ 51 : ℤ) < 2 ^ 51 := by omega
      exact_mod_cast this
    nlinarith

end Random

end KnnOracle
