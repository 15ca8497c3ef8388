/-
Adding zero to a score.

A service adds a bias to every score, also when the bias is zero. That
changes one number: the negative zero becomes the positive one, which is
its neighbor in the order of scores. So adding zero keeps the order, and
keeps numbers apart that differ (`Score.height_add_zero_lt`), and no
number is farther than zero from what it becomes (`sub_add_zero_abs`).
-/
import Mathlib
import KnnOracle.Score

namespace KnnOracle

open Float.Model

-- ========================================================= numbers, opened

/-- Zero, with its parts. -/
theorem unpack_zero : (0.0 : Float).toModel.unpack = .zero .positive := by
  have h : (0.0 : Float).toModel.toBits.toBitVec
      = UnpackedFloat.packedZero Format.binary64 .positive := by decide
  unfold Float.Model.unpack
  rw [h, UnpackedFloat.unpack_packedZero]

private theorem unpack_neg_zero :
    (-0.0 : Float).toModel.unpack = .zero .negative := by
  have h : (-0.0 : Float).toModel.toBits.toBitVec
      = UnpackedFloat.packedZero Format.binary64 .negative := by decide
  unfold Float.Model.unpack
  rw [h, UnpackedFloat.unpack_packedZero]

/-- A number is what its parts make up, so two numbers with the same parts are
one. -/
theorem ofModel_pack_unpack (x : Float) :
    .ofModel (Float.Model.pack x.toModel.unpack) = x := by
  obtain ⟨bits, hvalid⟩ := x
  have hbits := UnpackedFloat.pack_unpack_of_valid hvalid
  unfold Float.Model.pack Float.Model.unpack
  congr 2
  exact UInt64.toBitVec_inj.mp hbits

/-- A sum is what the sum of the parts makes up, rounded. Sums are opened by
this and not by unfolding. -/
theorem add_eq (x y : Float) :
    x + y = .ofModel (Float.Model.pack
      (UnpackedFloat.add Format.binary64 x.toModel.unpack y.toModel.unpack)) :=
        rfl

/-- A difference is what the difference of the parts makes up, rounded. -/
theorem sub_eq (x y : Float) :
    x - y = .ofModel (Float.Model.pack
      (UnpackedFloat.sub Format.binary64 x.toModel.unpack y.toModel.unpack)) :=
        rfl

/-- Whether a number is finite is read off its parts. -/
theorem isFinite_eq (x : Float) : x.isFinite = x.toModel.unpack.isFinite := rfl

-- ============================================================ adding zero

/-- Adding zero changes nothing but the negative zero, which becomes the
positive one. -/
theorem add_zero_eq (x : Float) : x + 0.0 = if x = -0.0 then 0.0 else x := by
  have hsum := add_eq x 0.0
  have hsame := ofModel_pack_unpack x
  rw [unpack_zero] at hsum
  split
  · next hx =>
      rw [hx]
      decide
  · next hne =>
      cases hx : x.toModel.unpack with
      | zero sign =>
          rw [hx] at hsum hsame
          cases sign with
          | positive => exact hsum.trans hsame
          | negative =>
              rw [← unpack_neg_zero, ofModel_pack_unpack] at hsame
              exact absurd hsame.symm hne
      | notANumber =>
          rw [hx] at hsum hsame
          exact hsum.trans hsame
      | infinity sign =>
          rw [hx] at hsum hsame
          exact hsum.trans hsame
      | finite sign mantissa exponent hpos =>
          rw [hx] at hsum hsame
          exact hsum.trans hsame

/-- A finite number is no distance from itself. For infinities this fails, as
their difference is no number. -/
theorem sub_self_abs {x : Float} (h : x.isFinite = true) :
    (x - x).abs = 0.0 := by
  have hzero := ofModel_pack_unpack 0.0
  rw [unpack_zero] at hzero
  rw [isFinite_eq] at h
  have hdiff : x - x = 0.0 := by
    rw [sub_eq]
    cases hx : x.toModel.unpack with
    | zero sign =>
        rw [← hzero]
        cases sign with
        | positive => rfl
        | negative => rfl
    | notANumber =>
        rw [hx] at h
        cases h
    | infinity sign =>
        rw [hx] at h
        cases h
    | finite sign mantissa exponent hpos =>
        rw [← hzero]
        unfold UnpackedFloat.sub
        simp [UnpackedFloat.normalize]
  rw [hdiff]
  decide

/-- Adding zero moves no number: the two zeros are no distance from each
other. -/
theorem sub_add_zero_abs {x : Float} (h : x.isFinite = true) :
    (x - (x + 0.0)).abs = 0.0 := by
  rw [add_zero_eq]
  split
  · next hx =>
      rw [hx]
      decide
  · exact sub_self_abs h

/-- Of zero and a number one is at most the other. Limits are tested by the one
and used by the other. -/
theorem zero_le_of_not_lt {x : Float} (hfinite : x.isFinite = true)
    (h : ¬x < 0.0) :
    0.0 ≤ x := by
  change ¬decide (x.toModel < (0.0 : Float).toModel) = true at h
  rw [decide_eq_true_eq] at h
  change ¬x.toModel.unpack.lt (0.0 : Float).toModel.unpack = true at h
  show decide ((0.0 : Float).toModel ≤ x.toModel) = true
  rw [decide_eq_true_eq]
  show (0.0 : Float).toModel.unpack.le x.toModel.unpack = true
  rw [isFinite_eq] at hfinite
  rw [unpack_zero] at h ⊢
  cases hx : x.toModel.unpack with
  | zero sign => rfl
  | notANumber =>
      rw [hx] at hfinite
      cases hfinite
  | infinity sign =>
      rw [hx] at hfinite
      cases hfinite
  | finite sign mantissa exponent hpos =>
      rw [hx] at h
      cases sign with
      | positive => rfl
      | negative => exact absurd rfl h

-- ================================================================= scores

namespace Score

theorem toFloat_ofFloat (x : Float) : (ofFloat x).toFloat = x :=
  Float.ofBits_toBits x

/-- A score that is no NaN keeps its bits as a number. All NaNs have the same
bits there. -/
theorem toBits_toFloat {s : Score} (h : s.toFloat.isNaN = false) :
    s.toFloat.toBits = s.bits := by
  have hround :=
    @UnpackedFloat.pack_unpack Format.binary64 s.bits.toBitVec (by decide)
  by_cases hnan : @UnpackedFloat.isNaNBits Format.binary64
    s.bits.toBitVec = true
  · -- all NaNs become one
    rw [if_pos hnan] at hround
    have hbits : s.toFloat.toBits
        = ⟨UnpackedFloat.packedNaN Format.binary64⟩ :=
      UInt64.toBitVec_inj.mp hround
    rw [← Float.ofBits_toBits s.toFloat, hbits] at h
    exact absurd h (by decide)
  · rw [if_neg hnan] at hround
    exact UInt64.toBitVec_inj.mp hround

private theorem ofFloat_inj {x y : Float} : ofFloat x = ofFloat y ↔ x = y := by
  refine ⟨fun h => ?_, congrArg ofFloat⟩
  rw [← toFloat_ofFloat x, h, toFloat_ofFloat]

/-- The two zeros are neighbors in the order of scores, with nothing between
them. -/
theorem height_zeros :
    (ofFloat (-0.0)).height + 1 = (ofFloat 0.0).height := by
  decide

/-- Adding zero moves the negative zero up by one, and nothing else. -/
theorem height_add_zero (x : Float) :
    (ofFloat (x + 0.0)).height
      = if (ofFloat x).height = (ofFloat (-0.0)).height then
        (ofFloat 0.0).height
        else (ofFloat x).height := by
  have hiff : (ofFloat x).height = (ofFloat (-0.0)).height ↔ x = -0.0 :=
    ⟨fun h => ofFloat_inj.mp (height_injective h), fun h => by rw [h]⟩
  rw [add_zero_eq, apply_ite ofFloat, apply_ite height]
  simp only [hiff]

/-- Adding zero keeps the order of scores: the only number that moves goes one
step up, to a place where it meets zero. -/
theorem height_add_zero_le {x y : Float}
    (h : (ofFloat x).height ≤ (ofFloat y).height) :
    (ofFloat (x + 0.0)).height ≤ (ofFloat (y + 0.0)).height := by
  have hzeros := height_zeros
  rw [height_add_zero, height_add_zero]
  split <;> split <;> omega

/-- Scores that differ as numbers stay apart, so adding zero makes no new ties
among them. -/
theorem height_add_zero_lt {x y : Float}
    (h : (ofFloat x).height < (ofFloat y).height) (hne : (y == x) = false) :
    (ofFloat (x + 0.0)).height < (ofFloat (y + 0.0)).height := by
  have hzeros := height_zeros
  have hnot : ¬((ofFloat x).height = (ofFloat (-0.0)).height ∧
      (ofFloat y).height = (ofFloat 0.0).height) := by
    rintro ⟨hx, hy⟩
    rw [ofFloat_inj.mp (height_injective hx),
      ofFloat_inj.mp (height_injective hy)] at hne
    revert hne
    decide
  rw [height_add_zero, height_add_zero]
  split <;> split <;> omega

end Score

end KnnOracle
