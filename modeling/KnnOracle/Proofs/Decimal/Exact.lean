/-
Operations that do not round.

A finite number has a value (`HasValue`), which is a rational, and a rational
that is such a value is `Representable`. Rounding leaves those as they are
(`isWorth_normalize`), so a sum or a product whose exact value is representable
has that value (`HasValue.add`, `HasValue.mul`). It is enough that the value
has at most 53 bits and is neither very large nor very small
(`representable_of_short`).

Numbers compare as their values do (`HasValue.le_iff`): a larger exponent
outweighs any significand, since those of larger exponents are full.
-/
import Mathlib
import KnnOracle.Proofs.Decimal.Range

namespace KnnOracle.Decimal

open Float.Model Float.Model.UnpackedFloat

-- ================================================================ signs

/-- A sign is a factor of plus or minus one. As rationals, products and sums of
signed numbers are then a matter of algebra. -/
private theorem cast_apply (s : Sign) (n : Int) :
    ((s.apply n : Int) : ℚ) = ((s.apply 1 : Int) : ℚ) * n := by
  cases s with
  | negative => simp [Sign.apply]
  | positive => simp [Sign.apply]

private theorem abs_apply (s : Sign) (n : Nat) :
    |((s.apply n : Int) : ℚ)| = n := by
  cases s with
  | negative => simp [Sign.apply]
  | positive => simp [Sign.apply]

private theorem apply_mul (s t : Sign) (m n : Nat) :
    (s * t).apply (m * n : Nat) = s.apply m * t.apply n := by
  rw [Nat.cast_mul]
  cases s with
  | negative =>
      cases t with
      | negative => exact (neg_mul_neg _ _).symm
      | positive => exact (neg_mul _ _).symm
  | positive =>
      cases t with
      | negative => exact (mul_neg _ _).symm
      | positive => rfl

/-- Every integer but zero is a sign and a size, the form in which floats keep
their significands. -/
private theorem exists_apply {k : Int} (hk : k ≠ 0) :
    ∃ (s : Sign) (n : Nat), 0 < n ∧ k = s.apply n := by
  rcases Int.lt_or_gt_of_ne hk with hneg | hpos
  · exact ⟨.negative, k.natAbs, Int.natAbs_pos.mpr hk,
      by simp only [Sign.apply]; omega⟩
  · exact ⟨.positive, k.natAbs, Int.natAbs_pos.mpr hk,
      by simp only [Sign.apply]; omega⟩

/-- Moving the point does not change a number, so a sum can be brought to the
smaller exponent. -/
theorem apply_shift (s : Sign) (m : Nat) {e e' : Int} (h : e' ≤ e) :
    ((s.apply (m <<< (e - e').toNat : Nat) : Int) : ℚ) * 2 ^ e'
      = (s.apply m : Int) * 2 ^ e := by
  obtain ⟨k, hk⟩ := Int.eq_ofNat_of_zero_le (Int.sub_nonneg_of_le h)
  have he : e = k + e' := by omega
  rw [hk, Int.toNat_natCast, Nat.shiftLeft_eq, he, zpow_add₀ (by norm_num),
    zpow_natCast, cast_apply s (m * 2 ^ k : Nat), cast_apply s m]
  push_cast
  ring

-- ============================================================ the rationals

/-- The value of some number. -/
def Representable (q : ℚ) : Prop :=
  q = 0 ∨ ∃ d : Dyadic, d.Canonical ∧ d.exponent ≤ 971 ∧ |q| = d.value

/-- A few bits before an exponent that is not extreme make a number. All draws
are shown to be exact by counting their bits. -/
theorem representable_of_short {k e : Int} (hk : k.natAbs < 2 ^ 53)
    (hlow : -1022 ≤ e) (hhigh : e ≤ 971) : Representable (k * 2 ^ e) := by
  rcases eq_or_ne k 0 with rfl | hne
  · exact .inl (by simp)
  have hpos : 0 < k.natAbs := Int.natAbs_pos.mpr hne
  obtain ⟨hd, hfull⟩ := canonical_wholeDyadic hpos hk
  have hexponent : (wholeDyadic k.natAbs).exponent ≤ 0 ∧
      -52 ≤ (wholeDyadic k.natAbs).exponent := by
    unfold wholeDyadic
    dsimp only
    omega
  refine .inr
    ⟨⟨(wholeDyadic k.natAbs).significand, (wholeDyadic k.natAbs).exponent + e⟩,
    ⟨hd.pos, hd.small, by dsimp only; omega, .inl hfull⟩, by
    dsimp only; omega, ?_⟩
  rw [abs_mul, abs_of_pos (a := (2 : ℚ) ^ e) (by positivity), Dyadic.value,
    zpow_add₀ (by norm_num), ← mul_assoc, wholeDyadic_value, Nat.cast_natAbs,
      Int.cast_abs]

-- =========================================================== normalizing

/-- Normalizing a signed significand is rounding its size under the sign. -/
private theorem normalize_apply (s : Sign) {n : Nat} (hn : 0 < n) (e : Int)
    (zero : Sign) :
    UnpackedFloat.normalize Format.binary64 (s.apply n) e zero
      = UnpackedFloat.round Format.binary64 s n e := by
  cases s with
  | positive => exact normalize_of_pos hn e zero
  | negative =>
      have hneg : compare (-(n : Int)) 0 = .lt :=
        Int.compare_eq_lt.mpr (by omega)
      rw [Sign.apply, UnpackedFloat.normalize, hneg]
      dsimp only
      rw [Int.neg_neg, Int.toNat_natCast]

/-- The rational that an unpacked number is. -/
inductive IsWorth : UnpackedFloat → ℚ → Prop where
  | zero (s : Sign) : IsWorth (.zero s) 0
  | finite (s : Sign) (m : Nat) (e : Int) (hm : 0 < m) :
      IsWorth (.finite s m e hm) ((s.apply m : Int) * 2 ^ e)

private theorem unpack_pack_zero (s : Sign) :
    (Float.Model.pack (.zero s)).unpack = .zero s := by
  cases s with
  | negative => rfl
  | positive => rfl

private theorem isWorth_pack_zero (s : Sign) :
    IsWorth (Float.Model.pack (.zero s)).unpack 0 := by
  rw [unpack_pack_zero]
  exact .zero s

/-- A multiple of a power of two that is the value of a number is in its
interval, so that rounding it gives the number. -/
theorem Representable.exists_attracts {s : Sign} {n : Nat} {e : Int}
    (hn : 0 < n) (h : Representable ((s.apply n : Int) * 2 ^ e)) :
    ∃ (d : Dyadic) (hd : d.Canonical), d.Attracts (n * 2 ^ e) ∧
      IsWorth
        (Float.Model.pack (.finite s d.significand d.exponent hd.pos)).unpack
        ((s.apply n : Int) * 2 ^ e) := by
  have hunit : (0 : ℚ) < 2 ^ e := by positivity
  have hnonzero : ((s.apply n : Int) : ℚ) * 2 ^ e ≠ 0 := by
    rw [← abs_pos, abs_mul, abs_apply, abs_of_pos hunit]
    positivity
  obtain ⟨d, hd, hle, habs⟩ := h.resolve_left hnonzero
  rw [abs_mul, abs_apply, abs_of_pos hunit, Dyadic.value] at habs
  have hsame : ((s.apply n : Int) : ℚ) * 2 ^ e
      = (s.apply d.significand : Int) * 2 ^ d.exponent := by
    rw [cast_apply s n, cast_apply s d.significand, mul_assoc, mul_assoc]
    exact congrArg _ habs
  refine ⟨d, hd, habs ▸ d.attracts_self, ?_⟩
  rw [unpack_pack hd hle, hsame]
  exact .finite _ _ _ _

/-- Rounding leaves alone what is the value of a number. Sums are computed
exactly first and rounded then. -/
theorem isWorth_normalize {k e : Int} (h : Representable (k * 2 ^ e))
    (zero : Sign) :
    IsWorth
      (Float.Model.pack
        (UnpackedFloat.normalize Format.binary64 k e zero)).unpack
      (k * 2 ^ e) := by
  rcases eq_or_ne k 0 with rfl | hne
  · have hzero : UnpackedFloat.normalize Format.binary64 0 e zero
      = .zero zero := rfl
    rw [hzero, Int.cast_zero, zero_mul]
    exact isWorth_pack_zero zero
  · obtain ⟨s, n, hn, rfl⟩ := exists_apply hne
    obtain ⟨d, hd, hattracts, hworth⟩ := h.exists_attracts hn
    rw [normalize_apply s hn, round_eq hd s hn hattracts]
    exact hworth

/-- Rounding does not change a product that is the value of a number. -/
theorem isWorth_mul {s t : Sign} {d d' : Dyadic} (hd : d.Canonical)
    (hd' : d'.Canonical)
    (h :
      Representable
        ((s.apply d.significand : Int) * 2 ^ d.exponent
          * ((t.apply d'.significand : Int) * 2 ^ d'.exponent))) :
    IsWorth (Float.Model.pack (UnpackedFloat.mul Format.binary64
        (.finite s d.significand d.exponent hd.pos)
        (.finite t d'.significand d'.exponent hd'.pos))).unpack
      ((s.apply d.significand : Int) * 2 ^ d.exponent
        * ((t.apply d'.significand : Int) * 2 ^ d'.exponent)) := by
  have hvalue : ((s.apply d.significand : Int) * 2 ^ d.exponent
        * ((t.apply d'.significand : Int) * 2 ^ d'.exponent) : ℚ)
      = ((s * t).apply (d.significand * d'.significand : Nat) : Int)
        * 2 ^ (d.exponent + d'.exponent) := by
    rw [apply_mul, zpow_add₀ (by norm_num)]
    push_cast
    ring
  rw [hvalue] at h ⊢
  obtain ⟨product, hproduct, hattracts, hworth⟩ :=
    h.exists_attracts (Nat.mul_pos hd.pos hd'.pos)
  -- a full significand makes the product long enough, and two small numbers
  -- need no length
  have hlong : 2 ^ 52 ≤ d.significand * d'.significand ∨
      d.exponent + d'.exponent ≤ -1074 := by
    rcases hd.full with hfull | hleast
    · exact .inl (hfull.trans (Nat.le_mul_of_pos_right _ hd'.pos))
    rcases hd'.full with hfull | hleast'
    · exact .inl (hfull.trans (Nat.le_mul_of_pos_left _ hd.pos))
    · right
      omega
  rw [UnpackedFloat.mul,
    roundWithAccuracy_whole hproduct (s * t) hattracts
      (le_targetExponent hlong)]
  exact hworth

-- ================================================================== sizes

/-- Sizes are in the order of exponents first, since a significand is full
unless the exponent is the least. -/
theorem Dyadic.Canonical.value_lt {d d' : Dyadic} (hd : d.Canonical)
    (hd' : d'.Canonical) (h : d.exponent < d'.exponent) :
    d.value < d'.value := by
  have hsmall : (d.significand : ℚ) < 2 ^ 53 := by exact_mod_cast hd.small
  have hleast := hd.least
  have hfull : (2 ^ 52 : ℚ) ≤ d'.significand := by
    exact_mod_cast hd'.full.resolve_right (by omega)
  have hdouble : (2 : ℚ) ^ (d.exponent + 1) = 2 * 2 ^ d.exponent := by
    rw [zpow_add_one₀ (by norm_num), mul_comm]
  calc d.value < 2 ^ 53 * 2 ^ d.exponent := by
        unfold Dyadic.value
        gcongr
    _ = 2 ^ 52 * 2 ^ (d.exponent + 1) := by
        rw [hdouble]
        ring
    _ ≤ d'.value := by
        unfold Dyadic.value
        gcongr
        · norm_num
        · omega

/-- The exponents decide between two values first, because a significand that
could be larger is full. -/
private theorem Dyadic.Canonical.value_le_iff {d d' : Dyadic}
    (hd : d.Canonical) (hd' : d'.Canonical) :
    d.value ≤ d'.value ↔ d.exponent < d'.exponent ∨
      d.exponent = d'.exponent ∧ d.significand ≤ d'.significand := by
  rcases lt_trichotomy d.exponent d'.exponent with hlt | heq | hgt
  · exact iff_of_true (hd.value_lt hd' hlt).le (.inl hlt)
  · have hunit : (0 : ℚ) < 2 ^ d'.exponent := by positivity
    rw [Dyadic.value, Dyadic.value, heq, mul_le_mul_iff_left₀ hunit,
      Nat.cast_le]
    simp
  · exact iff_of_false (hd'.value_lt hd hgt).not_ge (by omega)

private theorem Dyadic.Canonical.value_pos {d : Dyadic} (hd : d.Canonical) :
    0 < d.value :=
  lt_of_lt_of_le (by positivity) hd.le_value

end KnnOracle.Decimal

namespace KnnOracle

open Decimal Float.Model Float.Model.UnpackedFloat

variable {x y : Float} {p q : ℚ}

-- ================================================================= values

/-- The value of a finite number. -/
def HasValue (x : Float) (q : ℚ) : Prop := IsWorth x.toModel.unpack q

/-- Infinities and NaNs have no value, so exactness entails that nothing
overflowed. -/
theorem HasValue.isFinite (h : HasValue x q) : x.isFinite = true := by
  rw [isFinite_eq]
  unfold HasValue at h
  cases h' : x.toModel.unpack with
  | zero s => rfl
  | finite s m e hm => rfl
  | notANumber =>
      rw [h'] at h
      cases h
  | infinity s =>
      rw [h'] at h
      cases h

/-- A number with a value is zero, or it has its size and a sign. Sums and
products are computed in these cases. -/
theorem HasValue.cases (h : HasValue x q) :
    (∃ s, x.toModel.unpack = .zero s ∧ q = 0) ∨
    ∃ (d : Decimal.Dyadic) (s : Sign) (hd : d.Canonical),
      x.toModel.unpack = .finite s d.significand d.exponent hd.pos ∧
      q = (s.apply d.significand : Int) * 2 ^ d.exponent := by
  have hfinite := finite_cases h.isFinite
  unfold HasValue at h
  rcases hfinite with ⟨s, rfl⟩ | ⟨d, s, hd, hle, rfl⟩
  · change IsWorth (Float.Model.pack _).unpack _ at h
    rw [unpack_pack_zero] at h
    cases h
    exact .inl ⟨s, unpack_pack_zero s, rfl⟩
  · change IsWorth (Float.Model.pack _).unpack _ at h
    rw [unpack_pack hd hle] at h
    cases h
    exact .inr ⟨d, s, hd, unpack_pack hd hle s, rfl⟩

-- ============================================================= operations

private theorem exists_add_zeros (s t : Sign) :
    ∃ r, UnpackedFloat.add Format.binary64 (.zero s) (.zero t) = .zero r := by
  unfold UnpackedFloat.add
  dsimp only
  split
  · exact ⟨s, rfl⟩
  · exact ⟨.positive, rfl⟩

/-- A sum that need not be rounded has the sum of the values. What is drawn is
computed by such steps only. -/
theorem HasValue.add (hx : HasValue x p) (hy : HasValue y q)
    (h : Representable (p + q)) :
    HasValue (x + y) (p + q) := by
  rcases hx.cases with ⟨s, hux, rfl⟩ | ⟨d, s, hd, hux, rfl⟩
  · rcases hy.cases with ⟨t, huy, rfl⟩ | ⟨d', t, hd', huy, rfl⟩
    · obtain ⟨r, hr⟩ := exists_add_zeros s t
      rw [add_zero, add_eq, hux, huy, hr]
      exact isWorth_pack_zero r
    · have hsame : x + y = y := by
        rw [add_eq, hux, huy]
        exact (congrArg _ (congrArg _ huy.symm)).trans (ofModel_pack_unpack y)
      rw [hsame, zero_add]
      exact hy
  · rcases hy.cases with ⟨t, huy, rfl⟩ | ⟨d', t, hd', huy, rfl⟩
    · have hsame : x + y = x := by
        rw [add_eq, hux, huy]
        exact (congrArg _ (congrArg _ hux.symm)).trans (ofModel_pack_unpack x)
      rw [hsame, add_zero]
      exact hx
    · -- in units of the smaller exponent the sum is one of whole numbers
      rw [← apply_shift s d.significand (min_le_left d.exponent d'.exponent),
        ← apply_shift t d'.significand (min_le_right d.exponent d'.exponent),
          ← add_mul,
        ← Int.cast_add] at h ⊢
      rw [add_eq, hux, huy]
      exact isWorth_normalize h .positive

/-- A product that need not be rounded has the product of the values. -/
theorem HasValue.mul (hx : HasValue x p) (hy : HasValue y q)
    (h : Representable (p * q)) :
    HasValue (x * y) (p * q) := by
  show IsWorth
    (Float.Model.pack (UnpackedFloat.mul Format.binary64 x.toModel.unpack
    y.toModel.unpack)).unpack (p * q)
  rcases hx.cases with ⟨s, hux, rfl⟩ | ⟨d, s, hd, hux, rfl⟩
  · rw [zero_mul, hux]
    rcases hy.cases with ⟨t, huy, -⟩ | ⟨d', t, hd', huy, -⟩
    · rw [huy]
      exact isWorth_pack_zero (s * t)
    · rw [huy]
      exact isWorth_pack_zero (s * t)
  · rcases hy.cases with ⟨t, huy, rfl⟩ | ⟨d', t, hd', huy, rfl⟩
    · rw [hux, huy, mul_zero]
      exact isWorth_pack_zero (s * t)
    · rw [hux, huy]
      exact isWorth_mul hd hd' h

-- ================================================================ the order

/-- With a plus the value of a dyadic is its own. -/
theorem positive_apply_value (d : Decimal.Dyadic) :
    ((Sign.positive.apply d.significand : Int) : ℚ) * 2 ^ d.exponent
      = d.value := rfl

/-- With a minus it is the opposite. -/
theorem negative_apply_value (d : Decimal.Dyadic) :
    ((Sign.negative.apply d.significand : Int) : ℚ) * 2 ^ d.exponent
      = -d.value := by
  rw [Sign.apply, Int.cast_neg, neg_mul]
  rfl

/-- Numbers compare as their values do, which turns bounds on floats into
bounds on rationals. -/
theorem HasValue.le_iff (hx : HasValue x p) (hy : HasValue y q) :
    x ≤ y ↔ p ≤ q := by
  rw [float_le_iff, le_iff_weight_le]
  rcases hx.cases with ⟨s, hux, rfl⟩ | ⟨d, s, hd, hux, rfl⟩
  · rcases hy.cases with ⟨t, huy, rfl⟩ | ⟨d', t, hd', huy, rfl⟩
    · simp [hux, huy, weight]
    · have hpos := hd'.value_pos
      cases t with
      | negative =>
          rw [negative_apply_value]
          simp [hux, huy, weight, Prod.Lex.le_iff, hpos]
      | positive =>
          rw [positive_apply_value]
          simp [hux, huy, weight, Prod.Lex.le_iff, hpos.le]
  · have hpos := hd.value_pos
    rcases hy.cases with ⟨t, huy, rfl⟩ | ⟨d', t, hd', huy, rfl⟩
    · cases s with
      | negative =>
          rw [negative_apply_value]
          simp [hux, huy, weight, Prod.Lex.le_iff, hpos.le]
      | positive =>
          rw [positive_apply_value]
          simp [hux, huy, weight, Prod.Lex.le_iff, hpos]
    · have hpos' := hd'.value_pos
      cases s with
      | negative =>
          cases t with
          | negative =>
              rw [negative_apply_value, negative_apply_value, neg_le_neg_iff,
                hd'.value_le_iff hd]
              simp [hux, huy, weight, Prod.Lex.le_iff, eq_comm]
          | positive =>
              rw [negative_apply_value, positive_apply_value]
              refine iff_of_true ?_ (by linarith)
              simp [hux, huy, weight, Prod.Lex.le_iff]
      | positive =>
          cases t with
          | negative =>
              rw [positive_apply_value, negative_apply_value]
              refine iff_of_false ?_ (by linarith)
              simp [hux, huy, weight, Prod.Lex.le_iff]
          | positive =>
              rw [positive_apply_value, positive_apply_value,
                hd.value_le_iff hd']
              simp [hux, huy, weight, Prod.Lex.le_iff]

end KnnOracle
