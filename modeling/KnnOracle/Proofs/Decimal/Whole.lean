/-
Whole numbers as numbers.

Every whole number that is not zero lies in the interval of a binary64, if it
is not beyond the largest of them (`exists_attracts`): one of at most 53
bits is a binary64 itself, and a longer one is cut after 53 bits and rounded
there. So a count is a positive number, whatever it was rounded to, and
divided by itself it gives one (`ofNat_div_self`).
-/
import Mathlib
import KnnOracle.Proofs.Decimal.Nearest

namespace KnnOracle.Decimal

open Float.Model Float.Model.UnpackedFloat

-- ============================================================ the nearest

/-- Every number has an interval below it. -/
theorem Dyadic.below_pos (d : Dyadic) : 0 < d.below := by
  unfold Dyadic.below
  split <;> omega

/-- Whole multiples of a power of two, with the ends of their intervals in
quarters of it. -/
theorem Dyadic.attracts_whole {m n k : Nat}
    (hlow : 4 * (m * 2 ^ k) ≤ 4 * n + Dyadic.below ⟨m, k⟩ * 2 ^ k)
    (hhigh : 2 * n ≤ 2 * (m * 2 ^ k) + 2 ^ k)
    (hinside : m % 2 = 1 → 4 * (m * 2 ^ k)
      < 4 * n + Dyadic.below ⟨m, k⟩ * 2 ^ k ∧
      2 * n < 2 * (m * 2 ^ k) + 2 ^ k) :
    Dyadic.Attracts ⟨m, k⟩ n := by
  have hunit : (4 : ℚ) * 2 ^ ((k : ℤ) - 2) = ((2 ^ k : Nat) : ℚ) := by
    rw [← Dyadic.two_zpow_unit, zpow_natCast]
    push_cast
    rfl
  have hlowEnd : 4 * Dyadic.lowEnd ⟨m, k⟩
      = (4 * (m * 2 ^ k : Nat) : ℚ) - (Dyadic.below ⟨m, k⟩ * 2 ^ k : Nat) := by
    unfold Dyadic.lowEnd
    push_cast at hunit ⊢
    linear_combination (4 * (m : ℚ) - Dyadic.below ⟨m, k⟩) * hunit
  have hhighEnd : 2 * Dyadic.highEnd ⟨m, k⟩
      = (2 * (m * 2 ^ k : Nat) : ℚ) + (2 ^ k : Nat) := by
    unfold Dyadic.highEnd
    push_cast at hunit ⊢
    linear_combination (2 * (m : ℚ) + 1) * hunit
  refine ⟨?_, ?_, fun hodd => ⟨?_, ?_⟩⟩
  · have h : (4 * (m * 2 ^ k : Nat) : ℚ)
        ≤ 4 * n + (Dyadic.below ⟨m, k⟩ * 2 ^ k : Nat) := by
      exact_mod_cast hlow
    linarith
  · have h : (2 * n : ℚ) ≤ 2 * (m * 2 ^ k : Nat) + (2 ^ k : Nat) := by
      exact_mod_cast hhigh
    linarith
  · have h : (4 * (m * 2 ^ k : Nat) : ℚ)
        < 4 * n + (Dyadic.below ⟨m, k⟩ * 2 ^ k : Nat) := by
      exact_mod_cast (hinside hodd).1
    linarith
  · have h : (2 * n : ℚ) < 2 * (m * 2 ^ k : Nat) + (2 ^ k : Nat) := by
      exact_mod_cast (hinside hodd).2
    linarith

/-- A number of more than 53 bits is cut after them and rounded to even. -/
theorem exists_attracts_long {n : Nat} (hlong : 2 ^ 53 ≤ n)
    (hlog : n.log2 < 1023) :
    ∃ d : Dyadic, d.Canonical ∧ d.exponent ≤ 971 ∧ d.Attracts n := by
  have hpos : n ≠ 0 := by omega
  have hlong' : 53 ≤ n.log2 := (Nat.le_log2 hpos).mpr hlong
  obtain ⟨k, hk⟩ : ∃ k, n.log2 = k + 52 := ⟨n.log2 - 52, by omega⟩
  have hunit : 0 < 2 ^ k := by positivity
  have hlow : 2 ^ 52 ≤ n / 2 ^ k := by
    rw [Nat.le_div_iff_mul_le hunit, ← pow_add, Nat.add_comm, ← hk]
    exact Nat.log2_self_le hpos
  have hhigh : n / 2 ^ k < 2 ^ 53 := by
    rw [Nat.div_lt_iff_lt_mul hunit, ← pow_add, Nat.add_comm]
    have hself : n < 2 ^ (n.log2 + 1) := Nat.lt_log2_self
    rwa [hk] at hself
  have hsplit : n = n / 2 ^ k * 2 ^ k + n % 2 ^ k :=
    (Nat.div_add_mod' n (2 ^ k)).symm
  have hrest : n % 2 ^ k < 2 ^ k := Nat.mod_lt _ hunit
  generalize n / 2 ^ k = q at hlow hhigh hsplit
  generalize n % 2 ^ k = r at hsplit hrest
  have hsucc : (q + 1) * 2 ^ k = q * 2 ^ k + 2 ^ k := Nat.succ_mul q (2 ^ k)
  by_cases hdown : 2 * r < 2 ^ k ∨ 2 * r = 2 ^ k ∧ q % 2 = 0
  · have hbelow := Nat.mul_pos (Dyadic.below_pos ⟨q, k⟩) hunit
    refine ⟨⟨q, k⟩,
      ⟨by dsimp only; omega, hhigh, by dsimp only; omega, .inl hlow⟩,
      by dsimp only; omega, Dyadic.attracts_whole ?_ ?_ ?_⟩
    · omega
    · omega
    · omega
  by_cases hcarry : q + 1 = 2 ^ 53
  · -- the next power of two, whose lower neighbor is half as far
    have hbelow : Dyadic.below ⟨2 ^ 52, (k + 1 : Nat)⟩ = 1 :=
      if_pos ⟨rfl, by dsimp only; omega⟩
    have hdouble : 2 ^ (k + 1) = 2 * 2 ^ k := Nat.pow_succ'
    have hpower : 2 ^ 52 * 2 ^ (k + 1) = (q + 1) * 2 ^ k := by
      rw [hcarry, hdouble]
      ring
    refine ⟨⟨2 ^ 52, (k + 1 : Nat)⟩,
      ⟨by norm_num, by norm_num, by dsimp only; omega, .inl le_rfl⟩,
      by dsimp only; omega, Dyadic.attracts_whole ?_ ?_ ?_⟩
    · rw [hbelow, hpower]
      omega
    · rw [hpower]
      omega
    · intro hodd
      norm_num at hodd
  · have hbelow : Dyadic.below ⟨q + 1, k⟩ = 2 := if_neg fun h => by
      dsimp only at h
      omega
    refine ⟨⟨q + 1, k⟩,
      ⟨by dsimp only; omega, by dsimp only; omega, by dsimp only; omega,
      .inl (by dsimp only; omega)⟩,
        by dsimp only; omega, Dyadic.attracts_whole ?_ ?_ ?_⟩
    · rw [hbelow]
      omega
    · omega
    · intro hodd
      rw [hbelow]
      omega

/-- A whole number that is not too long is rounded to some number. This is all
that is needed of counts, and it takes both cases, the short ones and the long
ones. -/
theorem exists_attracts {n : Nat} (hpos : 0 < n) (hlog : n.log2 < 1023) :
    ∃ d : Dyadic, d.Canonical ∧ d.exponent ≤ 971 ∧ d.Attracts n := by
  by_cases hshort : n < 2 ^ 53
  · have hself := (wholeDyadic n).attracts_self
    rw [wholeDyadic_value] at hself
    exact ⟨wholeDyadic n, (canonical_wholeDyadic hpos hshort).1,
      wholeDyadic_exponent_le n, hself⟩
  · exact exists_attracts_long (Nat.le_of_not_lt hshort) hlog

-- ============================================================ conversion

/-- A whole number is converted to a positive number, of whatever length it
is. -/
theorem unpack_ofNat {n : Nat} (hpos : 0 < n) (hlog : n.log2 < 1023) :
    ∃ (m : Nat) (e : Int) (hm : 0 < m),
      (Float.ofNat n).toModel.unpack = .finite .positive m e hm := by
  obtain ⟨d, hd, hle, hattracts⟩ := exists_attracts hpos hlog
  refine ⟨d.significand, d.exponent, hd.pos, ?_⟩
  have hread : Float.ofNat n
      = .ofModel
        (Float.Model.pack
          (.finite .positive d.significand d.exponent hd.pos)) :=
    @ofScientific_eq d hd hle n hpos 0 (by simpa using hattracts)
  rw [hread]
  exact unpack_pack hd hle _

/-- The number one. -/
def oneDyadic : Dyadic := ⟨2 ^ 52, -52⟩

private theorem canonical_oneDyadic : oneDyadic.Canonical :=
  ⟨by decide, by decide, by decide, .inl (by decide)⟩

private theorem oneDyadic_value :
    (oneDyadic.significand * 2 ^ oneDyadic.exponent : ℚ) = 1 := by
  norm_num [oneDyadic]

private theorem pack_oneDyadic :
    .ofModel
      (Float.Model.pack
        (.finite .positive oneDyadic.significand oneDyadic.exponent
      canonical_oneDyadic.pos)) = (1.0 : Float) := by
  decide

/-- Whatever a count is rounded to, the quotient of it and itself is one. Full
recall is exactly one by this. -/
theorem ofNat_div_self {n : Nat} (hpos : 0 < n) (hlog : n.log2 < 1023) :
    Float.ofNat n / Float.ofNat n = 1.0 := by
  obtain ⟨m, e, hm, hn⟩ := unpack_ofNat hpos hlog
  have hmantissa : (m : ℚ) ≠ 0 := by exact_mod_cast hm.ne'
  have hquotient : oneDyadic.Attracts (m * 2 ^ e / (m * 2 ^ e)) := by
    rw [div_self (by positivity), ← oneDyadic_value]
    exact oneDyadic.attracts_self
  rw [← pack_oneDyadic]
  change Float.ofModel (Float.Model.pack (UnpackedFloat.div Format.binary64
    (Float.ofNat n).toModel.unpack (Float.ofNat n).toModel.unpack)) = _
  rw [hn, div_eq canonical_oneDyadic hm hm hquotient]

end KnnOracle.Decimal
