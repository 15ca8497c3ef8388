/-
Arithmetic that gives numbers.

A product, a sum or a difference is a NaN only where infinities or NaNs are
computed with: what is rounded is a number, however large (`round_ne`). So
finite operands give a number (`isNaN_mul`, `isNaN_sub`), and of the operands
of a sum one may be infinite (`isNaN_add`).
-/
import Mathlib
import KnnOracle.Proofs.Decimal.Finite
import KnnOracle.Proofs.Decimal.Whole

namespace KnnOracle.Decimal

open Float.Model Float.Model.UnpackedFloat

-- ========================================================== what is rounded

/-- Rounding is the last step of each operation, and it makes no NaN: at worst
it ends in an infinity. -/
private theorem round_ne (s : Sign) (m : Nat) (e : Int) :
    UnpackedFloat.round Format.binary64 s m e ≠ .notANumber :=
      roundWithAccuracy_ne _ _ _ _

private theorem normalize_ne (m : Int) (e : Int) (s : Sign) :
    UnpackedFloat.normalize Format.binary64 m e s ≠ .notANumber := by
  unfold UnpackedFloat.normalize
  split
  · exact round_ne _ _ _
  · simp
  · exact round_ne _ _ _

variable {u v : UnpackedFloat}

/-- An infinity times zero would be a NaN, so both operands have to be finite.
-/
private theorem mul_ne_of_isFinite (hu : u.isFinite = true)
    (hv : v.isFinite = true) :
    UnpackedFloat.mul Format.binary64 u v ≠ .notANumber := by
  cases u with
  | notANumber => cases hu
  | infinity s => cases hu
  | zero s =>
      cases v with
      | notANumber => cases hv
      | infinity t => cases hv
      | zero t => simp [UnpackedFloat.mul]
      | finite t m e hm => simp [UnpackedFloat.mul]
  | finite s m e hm =>
      cases v with
      | notANumber => cases hv
      | infinity t => cases hv
      | zero t => simp [UnpackedFloat.mul]
      | finite t m' e' hm' => exact mul_ne hm hm' s t

/-- Two infinities of different signs would be a NaN, so it is enough that one
operand is finite. -/
private theorem add_ne_of_isFinite (hu : u ≠ .notANumber)
    (hv : v ≠ .notANumber) (h : u.isFinite = true ∨ v.isFinite = true) :
    UnpackedFloat.add Format.binary64 u v ≠ .notANumber := by
  cases u with
  | notANumber => exact absurd rfl hu
  | infinity s =>
      cases v with
      | notANumber => exact absurd rfl hv
      | infinity t => cases h with
        | inl h => cases h
        | inr h => cases h
      | zero t => simp [UnpackedFloat.add]
      | finite t m e hm => simp [UnpackedFloat.add]
  | zero s =>
      cases v with
      | notANumber => exact absurd rfl hv
      | infinity t => simp [UnpackedFloat.add]
      | zero t =>
          intro h
          cases s <;> cases t <;> cases h
      | finite t m e hm => simp [UnpackedFloat.add]
  | finite s m e hm =>
      cases v with
      | notANumber => exact absurd rfl hv
      | infinity t => simp [UnpackedFloat.add]
      | zero t => simp [UnpackedFloat.add]
      | finite t m' e' hm' => exact normalize_ne _ _ _

private theorem sub_ne_of_isFinite (hu : u.isFinite = true)
    (hv : v.isFinite = true) :
    UnpackedFloat.sub Format.binary64 u v ≠ .notANumber := by
  cases u with
  | notANumber => cases hu
  | infinity s => cases hu
  | zero s =>
      cases v with
      | notANumber => cases hv
      | infinity t => cases hv
      | zero t =>
          intro h
          cases s <;> cases t <;> cases h
      | finite t m e hm => simp [UnpackedFloat.sub]
  | finite s m e hm =>
      cases v with
      | notANumber => cases hv
      | infinity t => cases hv
      | zero t => simp [UnpackedFloat.sub]
      | finite t m' e' hm' => exact normalize_ne _ _ _

private theorem abs_ne (hu : u ≠ .notANumber) : u.abs ≠ .notANumber := by
  cases u with
  | notANumber => exact absurd rfl hu
  | infinity s => simp [UnpackedFloat.abs]
  | zero s => simp [UnpackedFloat.abs]
  | finite s m e hm => simp [UnpackedFloat.abs]

end KnnOracle.Decimal

namespace KnnOracle

open Decimal Float.Model Float.Model.UnpackedFloat

-- ================================================================= numbers

variable {x y : Float}

/-- Whether a float is a NaN is seen from its parts, which is what the
operations are defined on. -/
private theorem isNaN_iff :
    x.isNaN = true ↔ x.toModel.unpack = .notANumber := by
  show x.toModel.unpack.isNaN = true ↔ _
  cases x.toModel.unpack <;> simp [UnpackedFloat.isNaN]

/-- The same for what is no NaN, as the laws of the operations need it. -/
theorem isNaN_eq_false_iff :
    x.isNaN = false ↔ x.toModel.unpack ≠ .notANumber := by
  rw [← Bool.not_eq_true, isNaN_iff]

/-- There is one NaN: all bits of one are taken for the same. Equations between
results need this. -/
theorem eq_of_isNaN (hx : x.isNaN = true) (hy : y.isNaN = true) : x = y := by
  rw [← ofModel_pack_unpack x, ← ofModel_pack_unpack y, isNaN_iff.mp hx,
    isNaN_iff.mp hy]

/-- What is finite is a number. Values that were read or drawn are known to be
finite, and this is what is mostly used of it. -/
theorem isNaN_of_isFinite (h : x.isFinite = true) : x.isNaN = false := by
  rw [isNaN_eq_false_iff]
  intro hnan
  rw [isFinite_eq, hnan] at h
  cases h

/-- A product of finite numbers is a number, though it may be infinite. The
squares and products of a vector are of this kind. -/
theorem isNaN_mul (hx : x.isFinite = true) (hy : y.isFinite = true) :
    (x * y).isNaN = false :=
  isNaN_eq_false_iff.mpr (unpack_pack_ne (mul_ne_of_isFinite hx hy))

/-- A sum is a number if one of the summands is finite and the other is a
number. A running sum may have overflowed already, so it cannot be asked to be
finite. -/
theorem isNaN_add (hx : x.isNaN = false) (hy : y.isNaN = false)
    (h : x.isFinite = true ∨ y.isFinite = true) : (x + y).isNaN = false :=
  isNaN_eq_false_iff.mpr (unpack_pack_ne
    (add_ne_of_isFinite (isNaN_eq_false_iff.mp hx)
      (isNaN_eq_false_iff.mp hy) h))

/-- A difference of finite numbers is a number. Drifts and score differences
are of this kind. -/
theorem isNaN_sub (hx : x.isFinite = true) (hy : y.isFinite = true) :
    (x - y).isNaN = false :=
  isNaN_eq_false_iff.mpr (unpack_pack_ne (sub_ne_of_isFinite hx hy))

/-- The size of a difference is a number if the difference is. -/
theorem isNaN_abs (hx : x.isNaN = false) : x.abs.isNaN = false :=
  isNaN_eq_false_iff.mpr (unpack_pack_ne (abs_ne (isNaN_eq_false_iff.mp hx)))

/-- A quotient of counts is a number if the divisor is not zero and not too
large to be finite. Recall is one. -/
theorem isNaN_ofNat_div {n k : Nat} (hk : 0 < k) (hle : n ≤ k)
    (hlog : k.log2 < 1023) :
    (Float.ofNat n / Float.ofNat k).isNaN = false := by
  obtain ⟨m, e, hm, hdivisor⟩ := unpack_ofNat hk hlog
  refine isNaN_eq_false_iff.mpr (unpack_pack_ne ?_)
  rw [hdivisor]
  rcases Nat.eq_zero_or_pos n with rfl | hn
  · have hzero : (Float.ofNat 0).toModel.unpack = .zero .positive := by
      have hsame : Float.ofNat 0 = 0.0 := by decide
      rw [hsame, unpack_zero]
    rw [hzero]
    simp [UnpackedFloat.div]
  · have hlog' : n.log2 ≤ k.log2 :=
      (Nat.le_log2 hk.ne').mpr ((Nat.log2_self_le hn.ne').trans hle)
    obtain ⟨m', e', hm', hdividend⟩ := unpack_ofNat hn (hlog'.trans_lt hlog)
    rw [hdividend]
    exact div_ne hm' hm _ _

end KnnOracle
