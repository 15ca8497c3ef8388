/-
Reading a decimal gives no NaN.

A decimal is computed from finite numbers by one product or one quotient,
and rounding leaves a zero, a finite number or, where it is too large, the
infinity (`roundWithAccuracy_ne`). So what a reader of numbers accepts,
which refuses the infinity, is finite (`isFinite_of_float?`).
-/
import Mathlib
import KnnOracle.Json.Decode
import KnnOracle.Proofs.Decimal.Nearest

namespace KnnOracle.Decimal

open Float.Model Float.Model.UnpackedFloat

/-- However a significand is rounded, a number comes out: too large a one
becomes an infinity, never a NaN. -/
theorem roundWithAccuracy_ne (s : Sign) (m : Nat) (e : Int) (a : Accuracy) :
    roundWithAccuracy Format.binary64 s m e a ≠ .notANumber := by
  unfold roundWithAccuracy
  dsimp only
  split <;> simp

/-- Packing makes no NaN of a number: the bits of a NaN are those of no number.
Each operation ends with a packing, so each of the lemmas below ends here. -/
theorem unpack_pack_ne {u : UnpackedFloat} (h : u ≠ .notANumber) :
    (Float.Model.pack u).unpack ≠ .notANumber := by
  intro hnan
  have hbits : UnpackedFloat.pack Format.binary64 u
      = packedNaN Format.binary64 :=
    (unpack_eq_notANumber_iff_of_valid valid_pack).mp hnan
  have hexponent := congrArg unpackExponent hbits
  have hmantissa := congrArg unpackMantissa hbits
  have htop : (-1#11).toNat = 2047 := rfl
  simp only [packedNaN, unpackExponent_packComponents] at hexponent
  simp only [packedNaN, unpackMantissa_packComponents] at hmantissa
  have hquiet : ¬(0#52 : BitVec 52) = 1#52 <<< 51 := by decide
  revert hexponent hmantissa
  fun_cases UnpackedFloat.pack Format.binary64 u with
  | case1 => exact absurd rfl h
  | case2 s =>
      intro _ hmantissa
      simp only [packedInfinity, unpackMantissa_packComponents] at hmantissa
      exact hquiet hmantissa
  | case3 s =>
      intro hexponent _
      simp only [packedZero, unpackExponent_packComponents] at hexponent
      exact absurd hexponent (by decide)
  | case4 s m e hm bits hlarge =>
      intro _ hmantissa
      simp only [packedInfinity, unpackMantissa_packComponents] at hmantissa
      exact hquiet hmantissa
  | case5 s m e hm log bits hsmall hfull =>
      intro hexponent _
      simp only [unpackExponent_packComponents] at hexponent
      have hnat : bits % 2 ^ 11 = 2047 :=
        (congrArg BitVec.toNat hexponent).trans htop
      have hbound : ¬2 ^ 11 ≤ bits + 1 := hsmall
      omega
  | case6 s m e hm log bits hsmall hfull =>
      intro hexponent _
      simp only [unpackExponent_packComponents] at hexponent
      exact absurd hexponent (by decide)

/-- A decimal with a positive scale is the product of two finite numbers, which
is a number. -/
theorem mul_ne {m₁ m₂ : Nat} {e₁ e₂ : Int} (h₁ : 0 < m₁) (h₂ : 0 < m₂)
    (s₁ s₂ : Sign) :
    UnpackedFloat.mul Format.binary64 (.finite s₁ m₁ e₁ h₁)
      (.finite s₂ m₂ e₂ h₂) ≠ .notANumber := by
  exact roundWithAccuracy_ne _ _ _ _

/-- A decimal with a negative scale is the quotient of two finite numbers, the
second of which is not zero. -/
theorem div_ne {m₁ m₂ : Nat} {e₁ e₂ : Int} (h₁ : 0 < m₁) (h₂ : 0 < m₂)
    (s₁ s₂ : Sign) :
    UnpackedFloat.div Format.binary64 (.finite s₁ m₁ e₁ h₁)
      (.finite s₂ m₂ e₂ h₂) ≠ .notANumber := by
  exact roundWithAccuracy_ne _ _ _ _

/-- Where the coefficient or the power of ten is too long for a float, the
decimal is computed in one go, and its product or quotient is rounded as
well. -/
private theorem ofScientific_long_ne {c : Nat} (hpos : 0 < c) (scale : Int) :
    UnpackedFloat.ofScientific Format.binary64 c scale ≠ .notANumber := by
  unfold UnpackedFloat.ofScientific
  rw [dif_neg hpos.ne']
  split
  · simp
  split
  · simp
  split
  · exact mul_ne _ _ _ _
  · exact div_ne _ _ _ _

/-- A decimal is computed to some number, an infinity included. -/
theorem ofScientific_ne {c : Nat} (hpos : 0 < c) (divide : Bool) (k : Nat) :
    (Float.ofScientific c divide k).toModel.unpack ≠ .notANumber := by
  unfold Float.ofScientific
  split
  · next h =>
      obtain ⟨hwhole, hfull⟩ := canonical_wholeDyadic hpos h.1
      have hle := wholeDyadic_exponent_le c
      obtain ⟨m, e, hm, hpower, -, -⟩ :=
        unpack_of_holdsWhole (holdsWhole_power ⟨k, Nat.lt_succ_of_le h.2⟩)
      rw [toFloat_toUInt64 hpos h.1]
      cases divide with
      | true =>
          change (Float.Model.pack (UnpackedFloat.div Format.binary64
            (Float.Model.pack _).unpack
              (power ⟨k, by omega⟩).toModel.unpack)).unpack ≠ _
          rw [unpack_pack hwhole hle, hpower]
          exact unpack_pack_ne (div_ne _ _ _ _)
      | false =>
          change (Float.Model.pack (UnpackedFloat.mul Format.binary64
            (Float.Model.pack _).unpack
              (power ⟨k, by omega⟩).toModel.unpack)).unpack ≠ _
          rw [unpack_pack hwhole hle, hpower]
          exact unpack_pack_ne (mul_ne _ _ _ _)
  · exact unpack_pack_ne (ofScientific_long_ne hpos _)

theorem nearest_ne (c : Nat) (scale : Int) :
    (nearest c scale).toModel.unpack ≠ .notANumber := by
  unfold nearest
  split
  · rw [unpack_zero]
    simp
  · next hne =>
      dsimp only
      generalize (if scale < 0 then (c.log2 : Int) + 4 * scale
        else c.log2 + 3 * scale) = least
      split
      · have hinfinity : infinity.toModel.unpack = .infinity .positive := by
          rw [unpack_eq]
          rfl
        rw [hinfinity]
        simp
      split
      · rw [unpack_zero]
        simp
      · exact ofScientific_ne (Nat.pos_of_ne_zero hne) _ _

private theorem signedNearest_ne (negative : Bool) (c : Nat) (scale : Int) :
    (signedNearest negative c scale).toModel.unpack ≠ .notANumber := by
  have h := nearest_ne c scale
  unfold signedNearest
  split
  · refine unpack_pack_ne ?_
    cases hx : (nearest c scale).toModel.unpack with
    | notANumber => exact absurd hx h
    | infinity s => simp [UnpackedFloat.neg]
    | zero s => simp [UnpackedFloat.neg]
    | finite s m e hpos => simp [UnpackedFloat.neg]
  · exact h

end KnnOracle.Decimal

namespace KnnOracle.Json

/-- What a reader accepts as a number is finite: no NaN can be spelled, and
infinities are refused. -/
theorem isFinite_of_float? {n : Numeral} {x : Float} (h : n.float? = some x) :
    x.isFinite = true := by
  have hne := Decimal.signedNearest_ne n.negative n.coefficient n.scale
  unfold Numeral.float? at h
  dsimp only at h
  split at h
  · cases h
  · next hinf =>
      cases h
      generalize Decimal.signedNearest n.negative n.coefficient n.scale = x
        at hne hinf ⊢
      change ¬x.toModel.unpack.isInf = true at hinf
      change x.toModel.unpack.isFinite = true
      cases hx : x.toModel.unpack with
      | notANumber => exact absurd hx hne
      | infinity s => exact absurd (by rw [hx]; rfl) hinf
      | zero s => rfl
      | finite s m e hpos => rfl

end KnnOracle.Json
