/-
The number nearest to a decimal.

A decimal is read by computing `c * 10 ^ scale` and rounding once. If its
value lies in the interval of a number, then that number is read, whatever
the digits: through an exact table of powers for short decimals, through a
product or a quotient of whole numbers for the others (`ofScientific_eq`).
The two ranges that are cut off beforehand hold no such decimal, since the
intervals lie between `2 ^ -1075` and `2 ^ 1024` (`nearest_eq`). With the
sign in front the number itself comes back (`signedNearest_eq`).
-/
import Mathlib
import KnnOracle.Decimal.Reading
import KnnOracle.Proofs.Decimal.Parts
import KnnOracle.Proofs.Ranking.Zero

namespace KnnOracle.Decimal

open Float.Model Float.Model.UnpackedFloat

variable {d : Dyadic}

-- ======================================================== whole numbers

/-- A dyadic rounds to itself, since it lies in the middle of its interval or
next to a narrower half. -/
theorem Dyadic.attracts_self (d : Dyadic) :
    d.Attracts (d.significand * 2 ^ d.exponent) := by
  have hpos : (0 : ℚ) < 2 ^ (d.exponent - 2) := by positivity
  have hbelow : (0 : ℚ) < d.below := by
    have : 0 < d.below := by
      unfold Dyadic.below
      split <;> omega
    exact_mod_cast this
  have hunit := Dyadic.two_zpow_unit d.exponent
  have hlow : d.lowEnd < d.significand * 2 ^ d.exponent := by
    rw [hunit, Dyadic.lowEnd]
    nlinarith
  have hhigh : (d.significand * 2 ^ d.exponent : ℚ) < d.highEnd := by
    rw [hunit, Dyadic.highEnd]
    nlinarith
  exact ⟨hlow.le, hhigh.le, fun _ => ⟨hlow, hhigh⟩⟩

/-- A whole number of at most 53 bits, with its first bit moved to the
front. -/
def wholeDyadic (n : Nat) : Dyadic :=
  ⟨n * 2 ^ (52 - n.log2), -((52 - n.log2 : Nat) : Int)⟩

/-- A whole number of at most 53 bits, moved to the left, fills its
significand. This is the form in which it is a number. -/
theorem canonical_wholeDyadic {n : Nat} (hpos : 0 < n) (hlt : n < 2 ^ 53) :
    (wholeDyadic n).Canonical ∧ 2 ^ 52 ≤ (wholeDyadic n).significand := by
  have hlog : n.log2 < 53 := (Nat.log2_lt hpos.ne').mpr hlt
  have hlow : 2 ^ 52 ≤ n * 2 ^ (52 - n.log2) :=
    calc 2 ^ 52 = 2 ^ n.log2 * 2 ^ (52 - n.log2) := by
          rw [← pow_add]; congr 1; omega
      _ ≤ n * 2 ^ (52 - n.log2) :=
        Nat.mul_le_mul_right _ (Nat.log2_self_le hpos.ne')
  have hhigh : n * 2 ^ (52 - n.log2) < 2 ^ 53 :=
    calc n * 2 ^ (52 - n.log2) < 2 ^ (n.log2 + 1) * 2 ^ (52 - n.log2) :=
          Nat.mul_lt_mul_of_pos_right Nat.lt_log2_self (by positivity)
      _ = 2 ^ 53 := by rw [← pow_add]; congr 1; omega
  refine ⟨⟨?_, hhigh, ?_, .inl hlow⟩, hlow⟩
  · change 0 < n * 2 ^ (52 - n.log2)
    omega
  · change -1074 ≤ -((52 - n.log2 : Nat) : Int)
    omega

theorem wholeDyadic_exponent_le (n : Nat) :
    (wholeDyadic n).exponent ≤ 971 := by
  unfold wholeDyadic
  dsimp only
  omega

/-- Moving a whole number to the left does not change it. -/
theorem wholeDyadic_value (n : Nat) :
    ((wholeDyadic n).significand * 2 ^ (wholeDyadic n).exponent : ℚ) = n := by
  unfold wholeDyadic
  dsimp only
  rw [zpow_neg, zpow_natCast]
  push_cast
  field_simp

/-- So rounding leaves the number as it is: the coefficients and powers of ten
that decimals are computed from are exact. -/
private theorem round_whole {n : Nat} (hpos : 0 < n) (hlt : n < 2 ^ 53) :
    UnpackedFloat.round Format.binary64 .positive n 0
      = .finite .positive (wholeDyadic n).significand (wholeDyadic n).exponent
          (canonical_wholeDyadic hpos hlt).1.pos := by
  obtain ⟨hd, hfull⟩ := canonical_wholeDyadic hpos hlt
  have hlog : n.log2 < 53 := (Nat.log2_lt hpos.ne').mpr hlt
  have htarget : Format.binary64.targetExponent (totalExponent n 0)
      = -((52 - n.log2 : Nat) : Int) := by
    rw [targetExponent_eq]
    omega
  have hfirst : decreaseExponent n 0 (-((52 - n.log2 : Nat) : Int))
      = ((wholeDyadic n).significand, (wholeDyadic n).exponent) := by
    simp [decreaseExponent, wholeDyadic, Nat.shiftLeft_eq]
  simp only [UnpackedFloat.round, htarget, hfirst]
  exact roundWithAccuracy_whole hd .positive (wholeDyadic n).attracts_self
    (le_targetExponent (.inl hfull))

/-- A whole number of at most 53 bits is converted exactly, so that short
decimals are computed from exact operands. -/
theorem toFloat_toUInt64 {n : Nat} (hpos : 0 < n) (hlt : n < 2 ^ 53) :
    n.toUInt64.toFloat = .ofModel
      (Float.Model.pack (.finite .positive (wholeDyadic n).significand
      (wholeDyadic n).exponent (canonical_wholeDyadic hpos hlt).1.pos)) := by
  have hnat : n.toUInt64.toNat = n := UInt64.toNat_ofNat_of_lt' (by
    change n < 2 ^ 64
    omega)
  have hsign : compare (n : Int) 0 = .gt := by
    rw [Int.compare_eq_gt]
    omega
  have hnormal : UnpackedFloat.normalize Format.binary64 (n : Int) 0 .positive
      = UnpackedFloat.round Format.binary64 .positive n 0 := by
    unfold UnpackedFloat.normalize
    rw [hsign]
    rfl
  change Float.ofModel
    (Float.Model.pack
      (UnpackedFloat.normalize Format.binary64 (n.toUInt64.toNat : Int) 0
    .positive)) = _
  rw [hnat, hnormal, round_whole hpos hlt]

-- ======================================================== powers of ten

/-- A power of either sign as a fraction of whole powers. Rounding is stated
for quotients of naturals, the values of numbers have powers of two. -/
theorem zpow_eq_div {b : ℚ} (hb : b ≠ 0) (e : ℤ) :
    b ^ e = b ^ e.toNat / b ^ (-e).toNat := by
  rw [← zpow_natCast, ← zpow_natCast, ← zpow_sub₀ hb]
  congr 1
  omega

/-- Whether a dyadic is a whole number, in whole numbers. -/
def Dyadic.isWhole (d : Dyadic) (n : Nat) : Bool :=
  d.significand * 2 ^ d.exponent.toNat == n * 2 ^ (-d.exponent).toNat

private theorem Dyadic.value_of_isWhole {n : Nat} (h : d.isWhole n = true) :
    (d.significand * 2 ^ d.exponent : ℚ) = n := by
  have hnat : d.significand * 2 ^ d.exponent.toNat
      = n * 2 ^ (-d.exponent).toNat :=
    beq_iff_eq.mp h
  have hvalue : (d.significand * 2 ^ d.exponent.toNat : ℚ)
      = n * 2 ^ (-d.exponent).toNat := by
    exact_mod_cast hnat
  rw [zpow_eq_div (by norm_num), ← mul_div_assoc, hvalue]
  field_simp

/-- Whether a number is the given whole one, held in 53 bits. -/
def holdsWhole (x : Float) (n : Nat) : Bool :=
  match Magnitude.ofFloat x with
  | .finite d =>
      !isNegative x && decide (2 ^ 52 ≤ d.significand) && d.isWhole n
  | _ => false

/-- A float that passes the test is the whole number, with a full significand.
The test can be evaluated, and the table of powers is put to it. -/
theorem unpack_of_holdsWhole {x : Float} {n : Nat}
    (h : holdsWhole x n = true) :
    ∃ m e, ∃ hpos : 0 < m, x.toModel.unpack = .finite .positive m e hpos ∧
      2 ^ 52 ≤ m
      ∧ (m * 2 ^ e : ℚ) = n := by
  unfold holdsWhole at h
  split at h
  · next d hd =>
      simp only [Bool.and_eq_true, Bool.not_eq_true', decide_eq_true_eq] at h
      obtain ⟨⟨hsign, hfull⟩, hwhole⟩ := h
      have hpos : 0 < d.significand := by omega
      refine ⟨d.significand, d.exponent, hpos, ?_, hfull,
        Dyadic.value_of_isWhole hwhole⟩
      rw [unpack_of_finite hd hpos, signOf, hsign]
      rfl
  · cases h

/-- The power of ten that short decimals are computed with. -/
def power (k : Fin 23) : Float :=
  getElem Float.exactlyRepresentablePowersOfTen k.val k.isLt

/-- The table of powers is exact. There are 23 of them, and each is looked
at. -/
theorem holdsWhole_power :
    ∀ k : Fin 23, holdsWhole (power k) (10 ^ k.val) = true := by
  decide

-- ============================================================= decimals

/-- A short decimal is computed from two exact numbers by one operation, which
rounds once. So it is rounded as it should be. -/
theorem ofScientific_short (hd : d.Canonical) {c : Nat} (hpos : 0 < c)
    (hlt : c < 2 ^ 53) {k : Nat} (hk : k ≤ 22) (divide : Bool)
    (hx : d.Attracts (c * 10 ^ (if divide then -(k : ℤ) else k))) :
    Float.ofScientific c divide k
      = .ofModel
        (Float.Model.pack
          (.finite .positive d.significand d.exponent hd.pos)) := by
  obtain ⟨hwhole, hfull⟩ := canonical_wholeDyadic hpos hlt
  have hle := wholeDyadic_exponent_le c
  have hvalue := wholeDyadic_value c
  obtain ⟨m, e, hm, hpower, hlong, hten⟩ :=
    unpack_of_holdsWhole (holdsWhole_power ⟨k, by omega⟩)
  unfold Float.ofScientific
  rw [dif_pos ⟨hlt, hk⟩, toFloat_toUInt64 hpos hlt]
  cases divide with
  | true =>
      change Float.ofModel (Float.Model.pack (UnpackedFloat.div Format.binary64
        (Float.Model.pack _).unpack (power ⟨k, by omega⟩).toModel.unpack)) = _
      rw [unpack_pack hwhole hle, hpower, div_eq hd]
      rw [hvalue, hten]
      simpa [div_eq_mul_inv] using hx
  | false =>
      change Float.ofModel (Float.Model.pack (UnpackedFloat.mul Format.binary64
        (Float.Model.pack _).unpack (power ⟨k, by omega⟩).toModel.unpack)) = _
      rw [unpack_pack hwhole hle, hpower, mul_eq hd]
      · rw [hvalue, hten]
        simpa using hx
      · exact hfull.trans (Nat.le_mul_of_pos_right _ hm)

/-- The powers of two that a decimal lies between. Ten lies between eight and
sixteen. -/
theorem two_zpow_le_decimal {c : Nat} (hpos : 0 < c) (scale : ℤ) :
    (2 : ℚ) ^ ((c.log2 : ℤ) + if scale < 0 then 4 * scale else 3 * scale)
      ≤ c * 10 ^ scale := by
  have hwhole : (2 : ℚ) ^ c.log2 ≤ c := by
    exact_mod_cast Nat.log2_self_le hpos.ne'
  have hten : (2 : ℚ) ^ (if scale < 0 then 4 * scale else 3 * scale)
      ≤ 10 ^ scale := by
    split
    · next h =>
        obtain ⟨k, rfl⟩ : ∃ k : ℕ, scale = -k := ⟨(-scale).toNat, by omega⟩
        rw [mul_neg, zpow_neg, zpow_neg, zpow_mul, zpow_natCast, zpow_natCast]
        gcongr
        norm_num
    · next h =>
        obtain ⟨k, rfl⟩ : ∃ k : ℕ, scale = k := ⟨scale.toNat, by omega⟩
        rw [zpow_mul, zpow_natCast, zpow_natCast]
        gcongr
        norm_num
  rw [zpow_add₀ (by norm_num), zpow_natCast]
  gcongr

/-- Eight to the power of a negative scale is more than ten to it, so a decimal
is bounded by its bits and three more for each place. -/
private theorem decimal_lt_two_zpow (c : Nat) {scale : ℤ} (h : scale ≤ 0) :
    (c * 10 ^ scale : ℚ) < 2 ^ ((c.log2 : ℤ) + 1 + 3 * scale) := by
  have hwhole : (c : ℚ) < 2 ^ (c.log2 + 1) := by
    exact_mod_cast Nat.lt_log2_self
  have hten : (10 : ℚ) ^ scale ≤ 2 ^ (3 * scale) := by
    obtain ⟨k, rfl⟩ : ∃ k : ℕ, scale = -k := ⟨(-scale).toNat, by omega⟩
    rw [mul_neg, zpow_neg, zpow_neg, zpow_mul, zpow_natCast, zpow_natCast]
    gcongr
    norm_num
  calc (c * 10 ^ scale : ℚ) ≤ c * 2 ^ (3 * scale) := by gcongr
    _ < 2 ^ (c.log2 + 1) * 2 ^ (3 * scale) := by gcongr
    _ = 2 ^ ((c.log2 : ℤ) + 1 + 3 * scale) := by
      rw [zpow_add₀ (by norm_num), ← zpow_natCast]
      rfl

/-- Intervals lie between the least power of two and the infinity, so that what
lies in one is neither too small nor too large. -/
theorem Dyadic.Attracts.bounds (hd : d.Canonical) (hle : d.exponent ≤ 971)
    {x : ℚ} (hx : d.Attracts x) :
    2 ^ (-1076 : ℤ) < x ∧ x < 2 ^ (1024 : ℤ) := by
  have hone : (1 : ℚ) ≤ d.significand := by exact_mod_cast hd.pos
  have hbelow : (d.below : ℚ) ≤ 2 := by exact_mod_cast d.below_le
  have hleast : (2 : ℚ) ^ (-1076 : ℤ) ≤ 2 ^ (d.exponent - 2) :=
    zpow_le_zpow_right₀ (by norm_num) (by have := hd.least; omega)
  have hpos : (0 : ℚ) < 2 ^ (d.exponent - 2) := by positivity
  refine ⟨?_, (hx.lt hd).trans_le
    (zpow_le_zpow_right₀ (by norm_num) (by omega))⟩
  calc (2 : ℚ) ^ (-1076 : ℤ) ≤ 2 ^ (d.exponent - 2) := hleast
    _ < d.lowEnd := by
      unfold Dyadic.lowEnd
      nlinarith
    _ ≤ x := hx.low

/-- A decimal in an interval is no longer and no shorter than this. Decimals
beyond are cut off by the reader without being computed. -/
theorem Dyadic.Attracts.scale_bounds (hd : d.Canonical)
    (hle : d.exponent ≤ 971) {c : Nat} (hpos : 0 < c) {scale : ℤ}
    (hx : d.Attracts (c * 10 ^ scale)) :
    ((c.log2 : ℤ) + if scale < 0 then 4 * scale else 3 * scale) < 1024
      ∧ (scale < 0 → -1076 < (c.log2 : ℤ) + 1 + 3 * scale) := by
  obtain ⟨hlow, hhigh⟩ := hx.bounds hd hle
  refine ⟨?_, fun h => ?_⟩
  · exact (zpow_lt_zpow_iff_right₀ (by norm_num : (1 : ℚ) < 2)).mp
      ((two_zpow_le_decimal hpos scale).trans_lt hhigh)
  · exact (zpow_lt_zpow_iff_right₀ (by norm_num : (1 : ℚ) < 2)).mp
      (hlow.trans (decimal_lt_two_zpow c h.le))

/-- Other decimals are computed from whole numbers of any length, with one
rounding at the end. -/
theorem ofScientific_long (hd : d.Canonical) (hle : d.exponent ≤ 971) {c : Nat}
    (hpos : 0 < c) {scale : ℤ} (hx : d.Attracts (c * 10 ^ scale)) :
    UnpackedFloat.ofScientific Format.binary64 c scale
      = .finite .positive d.significand d.exponent hd.pos := by
  obtain ⟨hhigh, hlow⟩ := hx.scale_bounds hd hle hpos
  have hlarge : ¬scale > 2 ^ Format.binary64.exponentBits := by
    change ¬scale > 2 ^ 11
    split at hhigh <;> omega
  have hsmall :
      ¬scale < -((2 ^ Format.binary64.exponentBits : ℤ) + c.log2) := by
    change ¬scale < -(2 ^ 11 + (c.log2 : ℤ))
    omega
  unfold UnpackedFloat.ofScientific
  rw [dif_neg hpos.ne', if_neg hlarge, if_neg hsmall]
  split
  · next h =>
      have hfull : c <<< Format.binary64.mantissaBits = c * 2 ^ 53 :=
        Nat.shiftLeft_eq c 53
      refine mul_eq hd _ _ ?_ ?_
      · obtain ⟨k, rfl⟩ : ∃ k : ℕ, scale = k := ⟨scale.toNat, by omega⟩
        have hunit : ((c <<< Format.binary64.mantissaBits : Nat) : ℚ)
            * 2 ^ (-(Format.binary64.mantissaBits : ℤ)) = c := by
          rw [hfull]
          change ((c * 2 ^ 53 : Nat) : ℚ) * 2 ^ (-53 : ℤ) = c
          push_cast
          rw [zpow_neg, zpow_ofNat]
          field_simp
          norm_num
        rw [hunit]
        simpa using hx
      · rw [hfull]
        calc 2 ^ 52 ≤ c * 2 ^ 53 := by omega
          _ ≤ c * 2 ^ 53 * 10 ^ scale.toNat :=
            Nat.le_mul_of_pos_right _ (by positivity)
  · next h =>
      refine div_eq hd _ _ ?_
      obtain ⟨k, rfl⟩ : ∃ k : ℕ, scale = -k := ⟨(-scale).toNat, by omega⟩
      simpa [div_eq_mul_inv] using hx

/-- The decimal point is a division or a product by a power of ten. The result
is rounded correctly, so it is the number that attracts the decimal. -/
theorem ofScientific_eq (hd : d.Canonical) (hle : d.exponent ≤ 971) {c : Nat}
    (hpos : 0 < c) {scale : ℤ} (hx : d.Attracts (c * 10 ^ scale)) :
    Float.ofScientific c (decide (scale < 0)) scale.natAbs
      = .ofModel
        (Float.Model.pack
          (.finite .positive d.significand d.exponent hd.pos)) := by
  by_cases hshort : c < 2 ^ 53 ∧ scale.natAbs ≤ 22
  · have hscale :
        (if decide (scale < 0) then -(scale.natAbs : ℤ) else scale.natAbs)
          = scale := by
      by_cases h : scale < 0
      · rw [if_pos (decide_eq_true h)]
        omega
      · rw [if_neg (by simpa using h)]
        omega
    exact ofScientific_short hd hpos hshort.1 hshort.2 _ (by rwa [hscale])
  · have hscale : (if decide (scale < 0) then Int.negOfNat scale.natAbs
        else Int.ofNat scale.natAbs) = scale := by
      by_cases h : scale < 0
      · rw [if_pos (decide_eq_true h), Int.negOfNat_eq, Int.ofNat_eq_natCast]
        omega
      · rw [if_neg (by simpa using h), Int.ofNat_eq_natCast]
        omega
    unfold Float.ofScientific
    rw [dif_neg hshort]
    dsimp only
    rw [hscale]
    exact congrArg (Float.ofModel ∘ Float.Model.pack)
      (ofScientific_long hd hle hpos hx)

/-- A decimal in the interval of a number is read as the number. The three ways
in which the reader computes are put together here. -/
theorem nearest_eq (hd : d.Canonical) (hle : d.exponent ≤ 971) {c : Nat}
    (hpos : 0 < c) {scale : ℤ} (hx : d.Attracts (c * 10 ^ scale)) :
    nearest c scale
      = .ofModel
        (Float.Model.pack
          (.finite .positive d.significand d.exponent hd.pos)) := by
  obtain ⟨hhigh, hlow⟩ := hx.scale_bounds hd hle hpos
  unfold nearest
  rw [if_neg hpos.ne']
  dsimp only
  have hlarge : ¬1100 < if scale < 0 then (c.log2 : ℤ) + 4 * scale
      else c.log2 + 3 * scale := by
    split at hhigh <;> omega
  have hsmall : ¬(c.log2 : ℤ) + 3 * scale < -1400 := by omega
  rw [if_neg hlarge, if_neg hsmall]
  exact ofScientific_eq hd hle hpos hx

-- ================================================================ signs

/-- A nonzero number is what its parts make up. -/
theorem eq_of_finite {x : Float} (h : Magnitude.ofFloat x = .finite d)
    (hpos : 0 < d.significand) :
    x = .ofModel
      (Float.Model.pack
        (.finite (signOf x) d.significand d.exponent hpos)) := by
  rw [← unpack_of_finite h hpos]
  exact (ofModel_pack_unpack x).symm

/-- With its sign in front, a decimal in the interval of a number is read as
the number. -/
theorem signedNearest_eq {x : Float} (h : Magnitude.ofFloat x = .finite d)
    (hpos : 0 < d.significand) {c : Nat} (hc : 0 < c) {scale : ℤ}
    (hx : d.Attracts (c * 10 ^ scale)) :
    signedNearest (isNegative x) c scale = x := by
  obtain ⟨hd, hle⟩ := canonical_of_finite h hpos
  have hsame := eq_of_finite h hpos
  unfold signOf at hsame
  unfold signedNearest
  rw [nearest_eq hd hle hc hx]
  cases hsign : isNegative x with
  | false =>
      rw [hsign] at hsame
      exact hsame.symm
  | true =>
      rw [hsign] at hsame
      exact (neg_pack hd hle .positive).trans hsame.symm

/-- Zeros come back with their sign, for a negated zero is the negative one. -/
theorem signedNearest_zero {x : Float} (h : Magnitude.ofFloat x = .finite d)
    (hzero : d.significand = 0) (scale : ℤ) :
    signedNearest (isNegative x) 0 scale = x := by
  have hunpack := unpack_eq x
  rw [h] at hunpack
  simp only [hzero, Nat.lt_irrefl, dite_false] at hunpack
  have hsame := ofModel_pack_unpack x
  rw [hunpack, signOf] at hsame
  unfold signedNearest nearest
  rw [if_pos rfl]
  cases hsign : isNegative x with
  | false =>
      rw [hsign] at hsame
      rw [← hsame]
      decide
  | true =>
      rw [hsign] at hsame
      rw [← hsame]
      decide

end KnnOracle.Decimal
