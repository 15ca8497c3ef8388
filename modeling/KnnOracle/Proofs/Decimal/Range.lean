/-
The range of numbers.

Every rational beyond half of the smallest number lies in the interval of
some dyadic (`Dyadic.exists_attracts_rat`): in units of the exponent that its
size asks for, the nearest whole number is the significand, and the next power
of two where that would be too long. The dyadic is a number exactly below the
limit, which is halfway from the largest number to the power of two behind it
(`Dyadic.Attracts.exponent_le_iff`); from there on the result is infinite
(`isFinite_pack_iff`). So it can be told from the exact result of an operation
whether the operation overflows.
-/
import Mathlib
import KnnOracle.Proofs.Decimal.Arithmetic
import KnnOracle.Proofs.Decimal.Nearest
import KnnOracle.Proofs.Decimal.Order
import KnnOracle.Proofs.Decimal.Widening

namespace KnnOracle.Decimal

open Float.Model Float.Model.UnpackedFloat

namespace Dyadic

variable {d : Dyadic} {x y : ℚ}

/-- The rational that a dyadic is. -/
def value (d : Dyadic) : ℚ := d.significand * 2 ^ d.exponent

/-- There is no smaller number than the smallest. -/
theorem Canonical.le_value (hd : d.Canonical) : 2 ^ (-1074 : ℤ) ≤ d.value := by
  have hone : (1 : ℚ) ≤ d.significand := by exact_mod_cast hd.pos
  calc (2 : ℚ) ^ (-1074 : ℤ) ≤ 2 ^ d.exponent :=
    zpow_le_zpow_right₀ (by norm_num) hd.least
    _ ≤ d.value := le_mul_of_one_le_left (by positivity) hone

-- ============================================================ the nearest

/-- The interval of a number in units of its last place, where the test is one
on whole numbers. -/
theorem attracts_of_units (hlow : (d.significand : ℚ) - d.below / 4 ≤ y)
    (hhigh : y ≤ d.significand + 1 / 2)
    (hinside : d.significand % 2 = 1 →
      (d.significand : ℚ) - d.below / 4 < y ∧ y < d.significand + 1 / 2) :
    d.Attracts (y * 2 ^ d.exponent) := by
  have hpos : (0 : ℚ) < 2 ^ d.exponent := by positivity
  have hlowEnd : d.lowEnd = (d.significand - d.below / 4)
      * 2 ^ d.exponent := by
    rw [two_zpow_unit d.exponent, lowEnd]
    ring
  have hhighEnd : d.highEnd = (d.significand + 1 / 2) * 2 ^ d.exponent := by
    rw [two_zpow_unit d.exponent, highEnd]
    ring
  refine ⟨?_, ?_, fun hodd => ⟨?_, ?_⟩⟩
  · rw [hlowEnd]
    gcongr
  · rw [hhighEnd]
    gcongr
  · rw [hlowEnd]
    have := (hinside hodd).1
    gcongr
  · rw [hhighEnd]
    have := (hinside hodd).2
    gcongr

/-- Fewer than 54 bits, of which the first is used or the exponent is the
least, are rounded to a dyadic. -/
theorem exists_attracts_units {e : ℤ} (he : -1074 ≤ e) (hsmall : y < 2 ^ 53)
    (hfull : 2 ^ 52 ≤ y ∨ e = -1074) (hpos : 1 / 2 < y) :
    ∃ d : Dyadic, d.Canonical ∧ d.Attracts (y * 2 ^ e) := by
  obtain ⟨m, hm, hm'⟩ : ∃ m : ℕ, (m : ℚ) ≤ y ∧ y < m + 1 :=
    ⟨⌊y⌋₊, Nat.floor_le (by linarith), Nat.lt_floor_add_one y⟩
  have hlt : m < 2 ^ 53 := by exact_mod_cast hm.trans_lt hsmall
  have hlong : 2 ^ 52 ≤ m ∨ e = -1074 := by
    refine hfull.imp_left fun h => ?_
    have : (2 ^ 52 : ℚ) < m + 1 := h.trans_lt hm'
    exact Nat.lt_succ_iff.mp (by exact_mod_cast this)
  by_cases hdown : y < m + 1 / 2 ∨ y = m + 1 / 2 ∧ m % 2 = 0
  · -- rounded down
    have hle : y ≤ m + 1 / 2 := hdown.elim le_of_lt fun h => h.1.le
    have hm0 : 0 < m := by
      rcases Nat.eq_zero_or_pos m with rfl | h
      · norm_num at hle
        linarith
      · exact h
    have hbelow : (0 : ℚ) < Dyadic.below ⟨m, e⟩ := by
      exact_mod_cast below_pos ⟨m, e⟩
    refine ⟨⟨m, e⟩, ⟨hm0, hlt, he, hlong⟩,
      attracts_of_units ?_ hle fun hodd => ⟨?_, ?_⟩⟩
    · dsimp only
      linarith
    · dsimp only
      linarith
    · refine hdown.resolve_right fun h => ?_
      dsimp only at hodd
      omega
  have hge : (m : ℚ) + 1 / 2 ≤ y := not_lt.mp fun h => hdown (.inl h)
  by_cases hcarry : m + 1 = 2 ^ 53
  · -- the next power of two, whose lower neighbor is half as far
    have hunit : y * 2 ^ e = y / 2 * 2 ^ (e + 1) := by
      rw [zpow_add_one₀ (by norm_num)]
      ring
    have hbelow : Dyadic.below ⟨2 ^ 52, e + 1⟩ = 1 :=
      if_pos ⟨rfl, by dsimp only; omega⟩
    have hpower : (m : ℚ) + 1 = 2 ^ 53 := by exact_mod_cast hcarry
    rw [hunit]
    refine ⟨⟨2 ^ 52, e + 1⟩,
      ⟨by norm_num, by norm_num, by dsimp only; omega, .inl le_rfl⟩,
      attracts_of_units ?_ ?_ fun hodd => ?_⟩
    · rw [hbelow]
      push_cast
      linarith
    · push_cast
      linarith
    · norm_num at hodd
  · -- rounded up
    have hbelow : Dyadic.below ⟨m + 1, e⟩ = 2 := if_neg fun h => by
      dsimp only at h
      omega
    refine ⟨⟨m + 1, e⟩, ⟨by dsimp only; omega, by dsimp only; omega, he, ?_⟩,
      attracts_of_units ?_ ?_ fun hodd => ⟨?_, ?_⟩⟩
    · exact hlong.imp_left fun h => by dsimp only; omega
    · rw [hbelow]
      push_cast
      linarith
    · push_cast
      linarith
    · rw [hbelow]
      have heven : m % 2 = 0 := by dsimp only at hodd; omega
      have hne : y ≠ m + 1 / 2 := fun h => hdown (.inr ⟨h, heven⟩)
      have := lt_of_le_of_ne hge hne.symm
      push_cast
      linarith
    · push_cast
      linarith

/-- Beyond half of the smallest number every rational is rounded to a dyadic.
Below that it is rounded to zero, which has no interval. -/
theorem exists_attracts_rat (h : 2 ^ (-1075 : ℤ) < x) :
    ∃ d : Dyadic, d.Canonical ∧ d.Attracts x := by
  have hx : 0 < x := lt_trans (by positivity) h
  have hlower : (2 : ℚ) ^ Int.log 2 x ≤ x :=
    Int.zpow_log_le_self (by norm_num) hx
  have hupper : x < (2 : ℚ) ^ (Int.log 2 x + 1) :=
    Int.lt_zpow_succ_log_self (by norm_num) x
  generalize Int.log 2 x = l at hlower hupper
  obtain ⟨e, he⟩ : ∃ e, e = max (l - 52) (-1074) := ⟨_, rfl⟩
  have hunit : (0 : ℚ) < 2 ^ e := by positivity
  have hself : x / 2 ^ e * 2 ^ e = x := div_mul_cancel₀ x hunit.ne'
  rw [← hself]
  refine exists_attracts_units (by omega) ?_ ?_ ?_
  · rw [div_lt_iff₀ hunit, ← zpow_natCast, ← zpow_add₀ (by norm_num)]
    exact hupper.trans_le
      (zpow_le_zpow_right₀ (by norm_num) (by push_cast; omega))
  · by_cases hleast : e = -1074
    · exact .inr hleast
    · left
      rw [le_div_iff₀ hunit, ← zpow_natCast, ← zpow_add₀ (by norm_num)]
      exact (zpow_le_zpow_right₀ (by norm_num) (by push_cast; omega)).trans
        hlower
  · have hhalf : (1 / 2 : ℚ) * 2 ^ e = 2 ^ (e - 1) := by
      rw [zpow_sub_one₀ (by norm_num)]
      ring
    rw [lt_div_iff₀ hunit, hhalf]
    by_cases hleast : e = -1074
    · rw [hleast]
      exact h
    · exact (zpow_lt_zpow_right₀ (by norm_num) (by omega)).trans_le hlower

-- ============================================================== the limit

/-- Halfway from the largest number to the power of two behind it. -/
def limit : ℚ := (2 ^ 54 - 1) * 2 ^ (970 : ℤ)

private theorem limit_eq : limit = (2 ^ 55 - 2) * 2 ^ (969 : ℤ) := by
  have hdouble : (2 : ℚ) ^ (970 : ℤ) = 2 * 2 ^ (969 : ℤ) :=
    zpow_one_add₀ (by norm_num) 969
  rw [limit, hdouble]
  ring

/-- Below the limit rationals are rounded to numbers, and from there on they
are not. This decides which noise can be drawn. -/
theorem Attracts.exponent_le_iff (hd : d.Canonical) (hx : d.Attracts x) :
    d.exponent ≤ 971 ↔ x < limit := by
  constructor
  · intro hle
    have hunit : (2 : ℚ) ^ (d.exponent - 2) ≤ 2 ^ (969 : ℤ) :=
      zpow_le_zpow_right₀ (by norm_num) (by omega)
    have hpos : (0 : ℚ) < 2 ^ (969 : ℤ) := by positivity
    rw [limit_eq]
    generalize (2 : ℚ) ^ (969 : ℤ) = unit at hunit hpos
    have hhigh : d.highEnd ≤ (4 * d.significand + 2) * unit := by
      unfold highEnd
      gcongr
    rcases Nat.mod_two_eq_zero_or_one d.significand with heven | hodd
    · have hsmall : d.significand + 2 ≤ 2 ^ 53 := by
        have := hd.small
        omega
      have hsmall' : (d.significand : ℚ) + 2 ≤ 2 ^ 53 := by
        exact_mod_cast hsmall
      calc x ≤ d.highEnd := hx.high
        _ ≤ (4 * d.significand + 2) * unit := hhigh
        _ < (2 ^ 55 - 2) * unit := by
          gcongr
          linarith
    · have hsmall : (d.significand : ℚ) + 1 ≤ 2 ^ 53 := by
        exact_mod_cast hd.small
      calc x < d.highEnd := (hx.inside hodd).2
        _ ≤ (4 * d.significand + 2) * unit := hhigh
        _ ≤ (2 ^ 55 - 2) * unit := by
          gcongr
          linarith
  · intro hlt
    by_contra hlarge
    have hunit : (2 : ℚ) ^ (970 : ℤ) ≤ 2 ^ (d.exponent - 2) :=
      zpow_le_zpow_right₀ (by norm_num) (by omega)
    have hfull : 2 ^ 52 ≤ d.significand := hd.full.resolve_right (by omega)
    have hquarters : (2 ^ 54 - 1 : ℚ) ≤ 4 * d.significand - d.below := by
      have hwhole : 2 ^ 54 + d.below ≤ 4 * d.significand + 1 := by
        unfold below
        split <;> omega
      have : (2 ^ 54 + d.below : ℚ) ≤ 4 * d.significand + 1 := by
        exact_mod_cast hwhole
      linarith
    have hle : limit ≤ d.lowEnd := by
      unfold limit lowEnd
      gcongr
    exact absurd hlt (not_lt.mpr (hle.trans hx.low))

end Dyadic

-- ============================================================== packing

variable {d : Dyadic}

private theorem unpack_pack_infinity (s : Sign) :
    (Float.Model.pack (.infinity s)).unpack = .infinity s := by
  cases s with
  | negative => rfl
  | positive => rfl

/-- Beyond the largest exponent there is only infinity. -/
theorem unpack_pack_of_large (hd : d.Canonical) (hlarge : 971 < d.exponent)
    (s : Sign) :
    (Float.Model.pack (.finite s d.significand d.exponent hd.pos)).unpack
      = .infinity s := by
  have hbound : 2 ^ Format.binary64.exponentBits
      ≤ (d.exponent + (Format.binary64.exponentBias : Int)
        + (Format.binary64.mantissaBitsWithoutImplicit : Int)).toNat + 1 := by
    change 2 ^ 11 ≤ (d.exponent + 1023 + 52).toNat + 1
    omega
  have hpacked : UnpackedFloat.pack Format.binary64
      (.finite s d.significand d.exponent hd.pos)
      = UnpackedFloat.pack Format.binary64 (.infinity s) := by
    unfold UnpackedFloat.pack
    dsimp only
    rw [if_pos hbound]
  change UnpackedFloat.unpack Format.binary64
    (UnpackedFloat.pack Format.binary64 _) = _
  rw [hpacked]
  exact unpack_pack_infinity s

private theorem isFinite_pack_iff (hd : d.Canonical) (s : Sign) :
    (Float.ofModel
      (Float.Model.pack (.finite s d.significand d.exponent hd.pos))).isFinite
        = true
      ↔ d.exponent ≤ 971 := by
  show (Float.Model.pack
    (.finite s d.significand d.exponent hd.pos)).unpack.isFinite = true ↔ _
  by_cases hle : d.exponent ≤ 971
  · rw [unpack_pack hd hle]
    exact iff_of_true rfl hle
  · rw [unpack_pack_of_large hd (by omega)]
    exact iff_of_false (by simp [UnpackedFloat.isFinite]) hle

-- ============================================================ operations

private theorem log2_mul_two_pow {n : Nat} (hn : 0 < n) (k : Nat) :
    (n * 2 ^ k).log2 = n.log2 + k := by
  induction k with
  | zero => rw [pow_zero, Nat.mul_one, Nat.add_zero]
  | succ k ih =>
      have hdouble : n * 2 ^ (k + 1) = 2 * (n * 2 ^ k) := by ring
      rw [hdouble, Nat.log2_two_mul (by positivity), ih, Nat.add_assoc]

/-- A whole number times a power of two is rounded to what attracts it. The
shift that rounding starts with changes nothing. -/
theorem round_eq (hd : d.Canonical) (s : Sign) {n : Nat} (hn : 0 < n) {e : Int}
    (hx : d.Attracts (n * 2 ^ e)) :
    UnpackedFloat.round Format.binary64 s n e
      = .finite s d.significand d.exponent hd.pos := by
  obtain ⟨k, hk⟩ : ∃ k : Nat,
      (e - Format.binary64.targetExponent (totalExponent n e)).toNat = k :=
        ⟨_, rfl⟩
  have hvalue : (n * 2 ^ e : ℚ) = (n * 2 ^ k : Nat) * 2 ^ (e - k) := by
    rw [zpow_sub₀ (by norm_num), zpow_natCast]
    push_cast
    field_simp
  have hlog : ((n * 2 ^ k).log2 : Int) = n.log2 + k := by
    exact_mod_cast log2_mul_two_pow hn k
  have hle : e - k ≤ Format.binary64.targetExponent
      (totalExponent (n * 2 ^ k) (e - k)) := by
    rw [targetExponent_eq] at hk
    rw [targetExponent_eq, hlog]
    omega
  rw [hvalue] at hx
  simp only [UnpackedFloat.round, decreaseExponent, hk, Nat.shiftLeft_eq]
  exact roundWithAccuracy_whole hd s hx hle

/-- In units of one exponent a difference is that of whole numbers, so it is
exact before it is rounded. -/
theorem sub_same_exponent (s t : Sign) {m n : Nat} (hm : 0 < m) (hn : 0 < n)
    (e : Int) :
    UnpackedFloat.sub Format.binary64 (.finite s m e hm) (.finite t n e hn)
      = UnpackedFloat.normalize Format.binary64 (s.apply m - t.apply n) e
        .positive := by
  show UnpackedFloat.normalize Format.binary64
    (s.apply (m <<< (e - min e e).toNat : Nat)
      - t.apply (n <<< (e - min e e).toNat : Nat))
    (min e e) .positive = _
  rw [min_self, Int.sub_self, Int.toNat_zero, Nat.shiftLeft_zero,
    Nat.shiftLeft_zero]

/-- A positive significand is rounded as it is. -/
theorem normalize_of_pos {n : Nat} (hn : 0 < n) (e : Int) (zero : Sign) :
    UnpackedFloat.normalize Format.binary64 n e zero
      = UnpackedFloat.round Format.binary64 .positive n e := by
  have hpos : compare (n : Int) 0 = .gt := Int.compare_eq_gt.mpr (by omega)
  rw [UnpackedFloat.normalize, hpos]
  rfl

/-- Twice a dyadic is one, with the next exponent. It may be too large for a
number. -/
theorem exists_double (hd : d.Canonical) :
    ∃ twice : Dyadic, twice.Canonical ∧ twice.value = 2 * d.value := by
  have hpos := hd.pos
  have hleast := hd.least
  by_cases hshort : 2 * d.significand < 2 ^ 53
  · refine ⟨⟨2 * d.significand, d.exponent⟩,
      ⟨by dsimp only; omega, hshort, hleast, ?_⟩, ?_⟩
    · dsimp only
      rcases hd.full with hfull | hleast
      · exact .inl (by omega)
      · exact .inr hleast
    · unfold Dyadic.value
      push_cast
      ring
  · refine ⟨⟨d.significand, d.exponent + 1⟩,
      ⟨hpos, hd.small, by dsimp only; omega, .inl (by dsimp only; omega)⟩, ?_⟩
    unfold Dyadic.value
    dsimp only
    rw [zpow_add_one₀ (by norm_num)]
    ring

/-- A number less its negative is twice the number. The width of a range of
noise is computed in this way. -/
theorem sub_opposite {twice : Dyadic} (hd : d.Canonical)
    (htwice : twice.Canonical) (hvalue : twice.value = 2 * d.value) :
    UnpackedFloat.sub Format.binary64
      (.finite .positive d.significand d.exponent hd.pos)
      (.finite .negative d.significand d.exponent hd.pos)
        = .finite .positive twice.significand twice.exponent htwice.pos := by
  have hsum : Sign.positive.apply d.significand
      - Sign.negative.apply d.significand
      = (2 * d.significand : Nat) := by
    show (d.significand : Int) - -d.significand = _
    omega
  have htwo : 0 < 2 * d.significand := Nat.mul_pos Nat.two_pos hd.pos
  have hexact : ((2 * d.significand : Nat) * 2 ^ d.exponent : ℚ)
      = twice.value := by
    rw [hvalue, Dyadic.value]
    push_cast
    ring
  rw [sub_same_exponent, hsum, normalize_of_pos htwo]
  exact round_eq htwice .positive htwo (hexact ▸ twice.attracts_self)

end KnnOracle.Decimal

namespace KnnOracle

open Decimal Float.Model Float.Model.UnpackedFloat
open Decimal.Dyadic (limit)

-- ================================================================= numbers

variable {x : Float} {d : Decimal.Dyadic}

/-- The number is positive, and the dyadic is its size. -/
def HasSize (x : Float) (d : Decimal.Dyadic) : Prop :=
  d.Canonical ∧ d.exponent ≤ 971 ∧
    ∃ hpos, x.toModel.unpack = .finite .positive d.significand d.exponent hpos

private theorem isFinite_of_magnitude (h : Magnitude.ofFloat x = .finite d) :
    x.isFinite = true := by
  rw [isFinite_eq, unpack_eq, h]
  dsimp only
  split
  · rfl
  · rfl

/-- What has a size is finite. -/
theorem HasSize.isFinite (h : HasSize x d) : x.isFinite = true := by
  obtain ⟨-, -, hpos, hunpack⟩ := h
  rw [isFinite_eq, hunpack]
  rfl

/-- Sizes are compared by their exponents first. -/
theorem HasSize.le_iff {y : Float} {e : Decimal.Dyadic} (hx : HasSize x d)
    (hy : HasSize y e) :
    x ≤ y ↔ d.exponent < e.exponent ∨
      d.exponent = e.exponent ∧ d.significand ≤ e.significand := by
  obtain ⟨-, -, hd, hx⟩ := hx
  obtain ⟨-, -, he, hy⟩ := hy
  rw [float_le_iff, hx, hy, le_iff_weight_le]
  simp [weight, Prod.Lex.le_iff]

/-- What comes out of an operation has a size if it is below the limit, and
is infinite otherwise. -/
theorem hasSize_or_infinite (hd : d.Canonical) :
    d.exponent ≤ 971 ∧ HasSize (.ofModel (Float.Model.pack
        (.finite .positive d.significand d.exponent hd.pos))) d ∨
    971 < d.exponent ∧ (Float.Model.pack
        (.finite .positive d.significand d.exponent hd.pos)).unpack
          = .infinity .positive := by
  rcases lt_or_ge 971 d.exponent with hlarge | hle
  · exact .inr ⟨hlarge, unpack_pack_of_large hd hlarge .positive⟩
  · exact .inl ⟨hle, hd, hle, hd.pos, unpack_pack hd hle .positive⟩

/-- A finite number is a zero, or it has a size up to its sign. -/
theorem finite_cases (h : x.isFinite = true) :
    (∃ s, x = .ofModel (Float.Model.pack (.zero s))) ∨
    ∃ (d : Decimal.Dyadic) (s : Sign) (hd : d.Canonical), d.exponent ≤ 971 ∧
      x = .ofModel
        (Float.Model.pack (.finite s d.significand d.exponent hd.pos)) := by
  obtain ⟨d, hd⟩ := finite_of_isFinite h
  have hself := ofModel_pack_unpack x
  rw [unpack_eq, hd] at hself
  dsimp only at hself
  by_cases hpos : 0 < d.significand
  · rw [dif_pos hpos] at hself
    obtain ⟨hcanonical, hle⟩ := canonical_of_finite hd hpos
    exact .inr ⟨d, signOf x, hcanonical, hle, hself.symm⟩
  · rw [dif_neg hpos] at hself
    exact .inl ⟨signOf x, hself.symm⟩

/-- Turning the sign keeps a number finite. -/
theorem isFinite_neg (h : x.isFinite = true) : (-x).isFinite = true := by
  rcases finite_cases h with ⟨s, rfl⟩ | ⟨d, s, hd, hle, rfl⟩
  · cases s with
    | negative => decide
    | positive => decide
  · rw [neg_pack hd hle, isFinite_pack_iff hd]
    exact hle

/-- What equals zero is one of the two zeros. A test for zero cannot tell them
apart. -/
theorem eq_zero_of_beq (hfinite : x.isFinite = true) (h : x == 0.0) :
    ∃ s, x = .ofModel (Float.Model.pack (.zero s)) := by
  rcases finite_cases hfinite with hzero | ⟨d, s, hd, hle, rfl⟩
  · exact hzero
  · change UnpackedFloat.beq (Float.Model.pack _).unpack _ = true at h
    rw [unpack_zero, unpack_pack hd hle] at h
    cases s with
    | negative => cases h
    | positive => cases h

/-- A number that is neither negative nor zero has a size. Degrees of noise are
of this kind once they are admitted. -/
theorem exists_hasSize (hfinite : x.isFinite = true) (hsign : ¬ x < 0.0)
    (hne : ¬ (x == 0.0) = true) : ∃ d, HasSize x d := by
  rcases finite_cases hfinite with ⟨s, rfl⟩ | ⟨d, s, hd, hle, rfl⟩
  · cases s with
    | negative => exact absurd (by decide) hne
    | positive => exact absurd (by decide) hne
  · cases s with
    | positive => exact ⟨d, hd, hle, hd.pos, unpack_pack hd hle .positive⟩
    | negative =>
        have hzero := float_le_iff.mp (zero_le_of_not_lt hfinite hsign)
        change UnpackedFloat.le _ (Float.Model.pack _).unpack = true at hzero
        rw [unpack_zero, unpack_pack hd hle] at hzero
        cases hzero

-- ================================================================== bits

theorem HasSize.isNegative_eq (h : HasSize x d) : isNegative x = false := by
  obtain ⟨d', hd'⟩ := finite_of_isFinite h.isFinite
  obtain ⟨-, -, hpos, hunpack⟩ := h
  rw [unpack_eq, hd'] at hunpack
  dsimp only at hunpack
  split at hunpack
  · have hsign : signOf x = .positive := (UnpackedFloat.finite.inj hunpack).1
    unfold signOf at hsign
    split at hsign
    · cases hsign
    · exact Bool.not_eq_true _ ▸ ‹_›
  · cases hunpack

/-- The bits of a positive number are below those of the infinity, so that
counting down from them passes through numbers only. -/
theorem HasSize.toBits_lt (h : HasSize x d) :
    x.toBits.toNat < 2047 * 2 ^ 52 := by
  have hlow : ¬ 2 ^ 63 ≤ x.toBits.toNat := by
    have hsign := h.isNegative_eq
    unfold isNegative at hsign
    rw [decide_eq_false_iff_not, ge_iff_le, UInt64.le_iff_toNat_le] at hsign
    exact hsign
  have hfield : x.toBits.toNat / 2 ^ 52 % 2 ^ 11 ≠ 2047 := by
    intro hfield
    obtain ⟨d', hd'⟩ := finite_of_isFinite h.isFinite
    unfold Magnitude.ofFloat Magnitude.ofBits at hd'
    dsimp only at hd'
    rw [if_pos hfield] at hd'
    split at hd'
    · cases hd'
    · cases hd'
  omega

/-- The bits below those of the infinity are those of a dyadic or zero. -/
theorem magnitude_ofBits {field fraction : Nat} (hfield : field < 2047)
    (hfraction : fraction < 2 ^ 52) :
    Magnitude.ofBits (UInt64.ofNat (field * 2 ^ 52 + fraction))
      = .finite (if field = 0 then ⟨fraction, -1074⟩
        else ⟨fraction + 2 ^ 52, (field : Int) - 1075⟩) := by
  have hfields :=
    ofBits_fields Nat.two_pos (hfield.trans (by norm_num)) hfraction
  rw [Nat.zero_mul, Nat.zero_add, if_neg hfield.ne] at hfields
  rw [hfields]
  split
  · rfl
  · rfl

/-- Below the field of infinities and NaNs all bits are those of a positive
finite number. Fitting the scale of noise counts such bits down. -/
theorem isFinite_ofBits {n : Nat} (h : n < 2047 * 2 ^ 52) :
    (Float.ofBits (UInt64.ofNat n)).isFinite = true := by
  have hbits := magnitude_ofBits (Nat.div_lt_of_lt_mul (Nat.mul_comm _ _ ▸ h))
    (Nat.mod_lt n (Nat.two_pow_pos 52))
  rw [Nat.div_add_mod'] at hbits
  refine isFinite_of_magnitude (Eq.trans ?_ hbits)
  rw [Magnitude.ofFloat, toBits_ofBits
    (by rw [hbits]; exact Magnitude.noConfusion)]

/-- The parts of a positive number that is not too small. -/
theorem unpack_ofBits {field fraction : Nat} (hpos : 0 < field)
    (hfield : field < 2047) (hfraction : fraction < 2 ^ 52) :
    (Float.ofBits (UInt64.ofNat (field * 2 ^ 52 + fraction))).toModel.unpack
      = .finite .positive (fraction + 2 ^ 52) ((field : Int) - 1075)
        (by positivity) := by
  have hbits := magnitude_ofBits hfield hfraction
  rw [if_neg hpos.ne'] at hbits
  have hnumber : Magnitude.ofBits (UInt64.ofNat (field * 2 ^ 52 + fraction))
      ≠ .nan := by
    rw [hbits]
    exact Magnitude.noConfusion
  have hsign := isNegative_ofBits Nat.two_pos
    (show field * 2 ^ 52 + fraction < 2 ^ 63 by omega)
  rw [Nat.zero_mul, Nat.zero_add] at hsign
  have hmagnitude : Magnitude.ofFloat
      (Float.ofBits (UInt64.ofNat (field * 2 ^ 52 + fraction))) = _ :=
    (congrArg Magnitude.ofBits (toBits_ofBits hnumber)).trans hbits
  rw [unpack_of_finite hmagnitude (by positivity)]
  refine finite_congr ?_ rfl rfl
  rw [signOf, hsign hnumber]
  rfl

/-- The size of a positive number that is not too small. The constants of the
sampler are looked at through this. -/
theorem hasSize_ofBits {field fraction : Nat} (hpos : 0 < field)
    (hfield : field < 2047) (hfraction : fraction < 2 ^ 52) :
    HasSize (Float.ofBits (UInt64.ofNat (field * 2 ^ 52 + fraction)))
      ⟨fraction + 2 ^ 52, (field : Int) - 1075⟩ :=
  ⟨⟨by positivity, by dsimp only; omega, by dsimp only; omega,
    .inl (Nat.le_add_left _ _)⟩, by dsimp only; omega, by positivity,
    unpack_ofBits hpos hfield hfraction⟩

-- ===================================================== results of operations

variable {y : Float} {e : Decimal.Dyadic}

/-- Turned, the sign is the only part that changes. -/
theorem HasSize.unpack_neg (hx : HasSize x d) :
    (-x).toModel.unpack = .finite .negative d.significand d.exponent
      hx.1.pos := by
  obtain ⟨hd, hle, hpos, hunpack⟩ := hx
  have hflip : x.toModel.unpack.neg
      = .finite .negative d.significand d.exponent hpos := by
    rw [hunpack]
    rfl
  change (Float.Model.pack x.toModel.unpack.neg).unpack = _
  rw [hflip]
  exact unpack_pack hd hle .negative

/-- Twice a number, as its distance from its negative: it has a size below
the limit, and is infinite from there on. -/
theorem sub_neg_cases (hx : HasSize x d) :
    (2 * d.value < limit ∧ ∃ twice, HasSize (x - -x) twice ∧
      twice.value = 2 * d.value) ∨
    (limit ≤ 2 * d.value ∧ (x - -x).toModel.unpack = .infinity .positive) := by
  have ⟨hd, _, _, hunpack⟩ := hx
  obtain ⟨twice, htwice, hvalue⟩ := exists_double hd
  have hself : twice.Attracts twice.value := twice.attracts_self
  have hdiff : x - -x = .ofModel (Float.Model.pack
      (.finite .positive twice.significand twice.exponent htwice.pos)) := by
    rw [sub_eq, hunpack, hx.unpack_neg, sub_opposite hd htwice hvalue]
  rw [← hvalue, ← not_lt, ← hself.exponent_le_iff htwice, hdiff]
  rcases hasSize_or_infinite htwice with ⟨hle, hsize⟩ | ⟨hlarge, hinfinite⟩
  · exact .inl ⟨hle, twice, hsize, rfl⟩
  · exact .inr ⟨by omega, hinfinite⟩

/-- A quotient of numbers has a size below the limit, and is not finite from
there on. There is no third case, as a quotient that is too small does not come
up. -/
theorem div_cases (hx : HasSize x d) (hy : HasSize y e)
    (hlow : 2 ^ (-1075 : ℤ) < d.value / e.value) :
    (d.value / e.value < limit ∧ ∃ q, HasSize (x / y) q) ∨
    (limit ≤ d.value / e.value ∧ (x / y).isFinite = false) := by
  obtain ⟨-, -, hd, hx⟩ := hx
  obtain ⟨-, -, he, hy⟩ := hy
  obtain ⟨q, hq, hattracts⟩ := Decimal.Dyadic.exists_attracts_rat hlow
  have hdiv : x / y = .ofModel (Float.Model.pack
      (.finite .positive q.significand q.exponent hq.pos)) := by
    rw [← div_eq hq hd he hattracts, ← hx, ← hy]
    rfl
  rw [← not_lt, ← hattracts.exponent_le_iff hq, hdiv]
  rcases hasSize_or_infinite hq with ⟨hle, hsize⟩ | ⟨hlarge, hinfinite⟩
  · exact .inl ⟨hle, q, hsize⟩
  · refine .inr ⟨by omega, ?_⟩
    show (Float.Model.pack _).unpack.isFinite = false
    rw [hinfinite]
    rfl

/-- A quotient whose numerator is infinite is no finite number, which is how
noise that is too wide shows itself. -/
theorem isFinite_div_of_infinite (hx : x.toModel.unpack = .infinity .positive)
    (hy : HasSize y e) : (x / y).isFinite = false := by
  obtain ⟨-, -, he, hy⟩ := hy
  have hdiv : UnpackedFloat.div Format.binary64 x.toModel.unpack
      y.toModel.unpack
      = .infinity .positive := by
    rw [hx, hy]
    rfl
  show (Float.Model.pack (UnpackedFloat.div Format.binary64 x.toModel.unpack
    y.toModel.unpack)).unpack.isFinite = false
  rw [hdiv, unpack_pack_infinity]
  rfl

end KnnOracle
