/-
The ranking order and the lists it ranks.

Scores are ranked by their bits, as signed words in which all other bits are
flipped if the sign bit is set (`Score.key`). Such words compare as the places
of scores do (`Score.compare_key`), so that the order is a total preorder in
which only equal bits tie. It is the order of numbers wherever that one
decides (`Score.height_lt_iff_lt`): the bits of a number count its steps from
zero, so the two orders part only at the zeros, which are one number and two
places, and at the NaNs, which are no numbers.

# The main statement

`rankOrder_ranks`: the order is such an order; `rank` is the one stable sort
by it (`isStableSort_iff`); and a list that stands in the order step by step
stands in it as a whole, which is when ranking it changes nothing.
-/
import Mathlib
import KnnOracle.Proofs.Decimal.Steps
import KnnOracle.Proofs.Ranking.Places

namespace KnnOracle

open Float.Model Float.Model.UnpackedFloat

-- ============================================================ signed words

/-- Flipping all bits counts a number from the other end. -/
theorem xor_low_ones {k m : Nat} (h : m < 2 ^ k) :
    m ^^^ (2 ^ k - 1) = 2 ^ k - 1 - m := by
  have hnot :=
    congrArg BitVec.toNat (BitVec.xor_allOnes (x := BitVec.ofNat k m))
  rwa [BitVec.toNat_xor, BitVec.toNat_not, BitVec.toNat_allOnes,
    BitVec.toNat_ofNat, Nat.mod_eq_of_lt h] at hnot

/-- Flipping the bits below one that is not flipped counts from the other end
as well, on top of that bit. -/
theorem two_pow_add_xor {k m : Nat} (h : m < 2 ^ k) :
    (2 ^ k + m) ^^^ (2 ^ k - 1) = 2 ^ k + (2 ^ k - 1 - m) := by
  have hpos := Nat.two_pow_pos k
  have hhigh : ((2 ^ k + m) ^^^ (2 ^ k - 1)) / 2 ^ k = 1 := by
    rw [Nat.xor_div_two_pow, Nat.add_div_left _ hpos, Nat.div_eq_of_lt h,
      Nat.div_eq_of_lt (Nat.sub_one_lt hpos.ne')]
    rfl
  have hlow : ((2 ^ k + m) ^^^ (2 ^ k - 1)) % 2 ^ k = 2 ^ k - 1 - m := by
    rw [Nat.xor_mod_two_pow, Nat.add_mod_left, Nat.mod_eq_of_lt h,
      Nat.mod_eq_of_lt (Nat.sub_one_lt hpos.ne'), xor_low_ones h]
  rw [← Nat.div_add_mod (_ ^^^ _) (2 ^ k), hhigh, hlow, Nat.mul_one]

/-- The sign bit, repeated in all bits below it. -/
def signMask (word : BitVec 64) : BitVec 64 := word.sshiftRight 63 >>> 1

private theorem signMask_of_lt {word : BitVec 64} (h : word.toNat < 2 ^ 63) :
    signMask word = 0#64 := by
  have hclear : word.msb = false :=
    BitVec.msb_eq_false_iff_two_mul_lt.mpr (by omega)
  rw [signMask, BitVec.sshiftRight_eq_of_msb_false hclear]
  apply BitVec.eq_of_toNat_eq
  rw [BitVec.toNat_ushiftRight, BitVec.toNat_ushiftRight,
    Nat.shiftRight_eq_div_pow word.toNat, Nat.div_eq_of_lt h]
  rfl

private theorem signMask_of_ge {word : BitVec 64} (h : 2 ^ 63 ≤ word.toNat) :
    signMask word = BitVec.ofNat 64 (2 ^ 63 - 1) := by
  have hset : word.msb = true :=
    BitVec.msb_eq_true_iff_two_mul_ge.mpr (by omega)
  have hnone : ~~~word >>> 63 = 0#64 := by
    apply BitVec.eq_of_toNat_eq
    rw [BitVec.toNat_ushiftRight, BitVec.toNat_not, Nat.shiftRight_eq_div_pow,
      Nat.div_eq_of_lt (by omega)]
    rfl
  rw [signMask, BitVec.sshiftRight_eq_of_msb_true hset, hnone]
  rfl

namespace Score

variable {s t : Score}

/-- The bits as a signed word, all but the sign bit flipped if that one is
set. -/
def key (s : Score) : Int64 :=
  s.bits.toInt64 ^^^ ((s.bits.toInt64 >>> 63).toUInt64 >>> 1).toInt64

/-- The key is the word with the masked bits flipped. Signed shifts of integers
are brought to shifts of bits here. -/
private theorem toBitVec_key (s : Score) :
    s.key.toBitVec = s.bits.toBitVec ^^^ signMask s.bits.toBitVec := rfl

/-- The key is the place of a score, counted from the middle. The program
compares keys, the specification places. -/
theorem toInt_key (s : Score) : s.key.toInt = s.height - 2 ^ 63 := by
  have hword : s.bits.toNat = s.bits.toBitVec.toNat := rfl
  have hlt := s.bits.toBitVec.isLt
  rw [Int64.toInt, toBitVec_key, height, hword]
  split
  · next h =>
      rw [signMask_of_lt h, BitVec.xor_zero,
        BitVec.toInt_eq_toNat_of_lt (by omega)]
      omega
  · next h =>
      have hge : 2 ^ 63 ≤ s.bits.toBitVec.toNat := Nat.le_of_not_lt h
      have hflipped : (s.bits.toBitVec ^^^ BitVec.ofNat 64 (2 ^ 63 - 1)).toNat
          = 2 ^ 63 + (2 ^ 63 - 1 - (s.bits.toBitVec.toNat - 2 ^ 63)) := by
        rw [← two_pow_add_xor (by omega), Nat.add_sub_cancel' hge]
        rfl
      rw [signMask_of_ge hge, BitVec.toInt_eq_toNat_cond, hflipped]
      split <;> omega

/-- Keys compare as places do, so the comparison of the program is that of a
linear order. -/
theorem compare_key (s t : Score) :
    compare s.key t.key = compare s.height t.height := by
  have hlt : s.key < t.key ↔ s.height < t.height := by
    rw [Int64.lt_iff_toInt_lt, toInt_key, toInt_key]
    omega
  have heq : s.key = t.key ↔ s.height = t.height := by
    rw [← Int64.toInt_inj, toInt_key, toInt_key]
    omega
  simp only [compare, compareOfLessAndEq, hlt, heq]

-- ================================================================ numbers

private theorem bits_inj : s.bits = t.bits ↔ s = t := by
  cases s
  cases t
  rw [Score.mk.injEq]

/-- Off the NaNs, scores that are one number are one score. All NaNs have the
bits of one when they are taken as numbers. -/
private theorem toFloat_inj (hs : s.toFloat.isNaN = false)
    (ht : t.toFloat.isNaN = false) :
    s.toFloat = t.toFloat ↔ s = t := by
  refine ⟨fun h => ?_, congrArg toFloat⟩
  rw [← bits_inj, ← toBits_toFloat hs, ← toBits_toFloat ht, h]

/-- Of scores that are no NaN and not both zero, the higher place has the
larger number. -/
theorem height_lt_iff_lt (hs : s.toFloat.isNaN = false)
    (ht : t.toFloat.isNaN = false)
    (hzeros : ¬((s.toFloat == 0.0) = true ∧ (t.toFloat == 0.0) = true)) :
    s.height < t.height ↔ s.toFloat < t.toFloat := by
  have hsteps : ¬(steps s.toFloat = 0 ∧ steps t.toFloat = 0) := fun h =>
    hzeros ⟨beq_zero_of_steps h.1, beq_zero_of_steps h.2⟩
  have hlt := s.bits.toNat_lt
  have hlt' := t.bits.toNat_lt
  rw [lt_iff_steps_lt hs ht]
  simp only [steps, height, toBits_toFloat hs, toBits_toFloat ht] at hsteps ⊢
  split_ifs at hsteps ⊢ <;> omega

/-- Scores that are no NaN and not both zero are equal as numbers only if they
are the same. -/
theorem toFloat_beq_iff (hs : s.toFloat.isNaN = false)
    (ht : t.toFloat.isNaN = false)
    (hzeros : ¬((s.toFloat == 0.0) = true ∧ (t.toFloat == 0.0) = true)) :
    (s.toFloat == t.toFloat) = true ↔ s = t := by
  have hpositive : ((0 : Float) == 0.0) = true := by decide
  have hnegative : ((-0 : Float) == 0.0) = true := by decide
  rw [Float.beq_iff_ne_nan_and_eq, ← toFloat_inj hs ht]
  constructor
  · rintro ⟨-, -, h | ⟨h, h'⟩ | ⟨h, h'⟩⟩
    · exact h
    · rw [h, h'] at hzeros
      exact absurd ⟨hpositive, hnegative⟩ hzeros
    · rw [h, h'] at hzeros
      exact absurd ⟨hnegative, hpositive⟩ hzeros
  · intro h
    rw [Float.isNaN_eq_decide_eq_nan, decide_eq_false_iff_not] at hs ht
    exact ⟨hs, ht, .inl h⟩

end Score

namespace Neighbor

variable {a b : Neighbor} {list sorted : List Neighbor}

-- =============================================================== the order

/-- The neighbor with the higher score comes first. -/
private theorem rankOrder_eq_lt_iff :
    a.rankOrder b = .lt ↔ b.score.height < a.score.height :=
  Nat.compare_eq_lt

private theorem rankOrder_eq_gt_iff :
    a.rankOrder b = .gt ↔ a.score.height < b.score.height :=
  Nat.compare_eq_gt

/-- Only equal scores tie. Equal numbers need not, as the two zeros show. -/
theorem rankOrder_eq_eq_iff : a.rankOrder b = .eq ↔ a.score = b.score := by
  rw [rankOrder, Nat.compare_eq_eq]
  exact ⟨fun h => (Score.height_injective h).symm, fun h => by rw [h]⟩

/-- The comparison that the sort uses is the order, read as a yes or no. -/
private theorem rankOrder_ne_gt_iff :
    a.rankOrder b ≠ .gt ↔ a.mayPrecede b = true :=
  bne_iff_ne.symm

instance : Std.TransCmp rankOrder where
  eq_swap := (Nat.compare_swap _ _).symm
  isLE_trans hab hbc := by
    rw [Ordering.isLE_iff_ne_gt, ← ne_eq, rankOrder_ne_gt_iff] at hab hbc ⊢
    exact mayPrecede_trans hab hbc

/-- An order of neighbors that ranks them by falling scores, whatever bits
the scores have. -/
structure RanksByScore (order : Neighbor → Neighbor → Ordering) : Prop where
  /-- The keys of the scores are compared, the second with the first. -/
  byKey : ∀ a b, order a b = compare b.score.key a.score.key
  /-- It is a total preorder: of two neighbors exchanged the outcome is
  reversed, and what may precede may precede what comes later still. -/
  preorder : Std.TransCmp order
  /-- Those tie whose scores are the same bits, and no others. -/
  tie_iff : ∀ a b, order a b = .eq ↔ a.score.bits = b.score.bits
  /-- Of numbers that are not both zero the larger one is in front. -/
  numeric : ∀ a b : Neighbor, a.score.toFloat.isNaN = false →
    b.score.toFloat.isNaN = false →
    ¬((a.score.toFloat == 0.0) = true ∧ (b.score.toFloat == 0.0) = true) →
    (order a b = .lt ↔ b.score.toFloat < a.score.toFloat) ∧
    (order a b = .eq ↔ (a.score.toFloat == b.score.toFloat) = true) ∧
    (order a b = .gt ↔ a.score.toFloat < b.score.toFloat)

/-- The order of neighbors ranks by score: it is a total preorder in which
equal bits tie, and that of numbers where these differ. -/
private theorem ranksByScore_rankOrder : RanksByScore rankOrder where
  byKey a b := (Score.compare_key b.score a.score).symm
  preorder := inferInstance
  tie_iff a b := by rw [rankOrder_eq_eq_iff, Score.bits_inj]
  numeric a b ha hb hzeros := by
    refine ⟨?_, ?_, ?_⟩
    · rw [rankOrder_eq_lt_iff,
        Score.height_lt_iff_lt hb ha (mt And.symm hzeros)]
    · rw [rankOrder_eq_eq_iff, Score.toFloat_beq_iff ha hb hzeros]
    · rw [rankOrder_eq_gt_iff, Score.height_lt_iff_lt ha hb hzeros]

-- ============================================================ ranked lists

/-- The check compares each entry with the next one, and that is enough for all
pairs, since the order is transitive. -/
theorem isRanked_iff_pairwise :
    isRanked list = true ↔ list.Pairwise fun a b => a.mayPrecede b = true := by
  induction list with
  | nil => exact iff_of_true rfl .nil
  | cons a rest ih =>
      cases rest with
      | nil => exact iff_of_true rfl (List.pairwise_singleton _ a)
      | cons b rest =>
          rw [isRanked, Bool.and_eq_true, ih, List.pairwise_cons (a := a)]
          refine and_congr_left fun hrest =>
            ⟨fun hab c hc => ?_, fun h => h b List.mem_cons_self⟩
          -- what `b` may precede, `a` may precede too
          rcases List.mem_cons.mp hc with rfl | hc
          · exact hab
          · exact mayPrecede_trans hab (List.rel_of_pairwise_cons hrest hc)

/-- Ranking leaves the lists alone that are ranked, and no others. -/
theorem rank_eq_self_iff :
    rank list = list ↔ list.Pairwise fun a b => a.mayPrecede b = true := by
  refine ⟨fun h => ?_, List.mergeSort_of_pairwise⟩
  rw [← h]
  exact pairwise_rank list

-- ============================================================ stable sorts

/-- A list put in order, in which neighbors that tie stand as they stood
before. -/
def IsStableSort (order : Neighbor → Neighbor → Ordering)
    (list sorted : List Neighbor) : Prop :=
  ∃ placed : List (Neighbor × Nat),
    placed.Perm list.zipIdx ∧ placed.map Prod.fst = sorted ∧
    placed.Pairwise fun a b => order a.1 b.1 = .lt ∨ order a.1 b.1 = .eq ∧
      a.2 < b.2

private theorem ahead_iff {a b : Neighbor × Nat} :
    Ahead a b ↔ a.1.rankOrder b.1 = .lt ∨ a.1.rankOrder b.1 = .eq ∧
      a.2 < b.2 := by
  rw [rankOrder_eq_lt_iff, rankOrder_eq_eq_iff, Ahead]

theorem Ahead.asymm {a b : Neighbor × Nat} (hab : Ahead a b) : ¬Ahead b a := by
  rintro (hba | ⟨hscore, hba⟩)
  · rcases hab with hab | ⟨hscore, -⟩
    · omega
    · rw [hscore] at hba
      omega
  · rcases hab with hab | ⟨-, hab⟩
    · rw [hscore] at hab
      omega
    · omega

/-- There is one stable sort by the ranking order, which is ranking. Being
ahead breaks all ties, so a sorted list has no choice left. -/
theorem isStableSort_iff :
    IsStableSort rankOrder list sorted ↔ sorted = rank list := by
  simp only [IsStableSort, ← ahead_iff]
  obtain ⟨placed, hperm, hrank, hahead⟩ := exists_places_of_rank list
  constructor
  · rintro ⟨other, hother, rfl, hsorted⟩
    have hsame : other = placed := List.Perm.eq_of_pairwise
      (fun _ _ _ _ hab hba => absurd hba hab.asymm) hsorted hahead
        (hother.trans hperm.symm)
    rw [hsame, hrank]
  · rintro rfl
    exact ⟨placed, hperm, hrank, hahead⟩

-- ====================================================== the main statement

/-- The ranking order ranks by scores, ranking sorts by it and keeps ties in
order, and the check of a list tells whether ranking would change it. -/
theorem rankOrder_ranks :
    RanksByScore rankOrder ∧
    ∀ list : List Neighbor,
      (∀ sorted, IsStableSort rankOrder list sorted ↔ sorted = rank list) ∧
      [isRanked list = true,
        ∀ (i j : Nat) (_ : i < j) (hj : j < list.length),
          list[i].rankOrder list[j] ≠ .gt,
        rank list = list].TFAE := by
  refine ⟨ranksByScore_rankOrder,
    fun list => ⟨fun sorted => isStableSort_iff, ?_⟩⟩
  have hpairs : (∀ (i j : Nat) (_ : i < j) (hj : j < list.length),
      list[i].rankOrder list[j] ≠ .gt) ↔
        list.Pairwise fun a b => a.mayPrecede b = true := by
    simp only [rankOrder_ne_gt_iff, List.pairwise_iff_getElem]
    exact ⟨fun h i j _ hj hij => h i j hij hj,
      fun h i j hij hj => h i j (hij.trans hj) hj hij⟩
  rw [hpairs, isRanked_iff_pairwise, rank_eq_self_iff]
  tfae_finish

/-- From the top to the bottom: the NaN of a clear sign bit, the infinity,
one, the two zeros, minus one, the negative infinity and the NaN of a set sign
bit. -/
example : isRanked [⟨⟨1⟩, ⟨0x7FF8000000000000⟩⟩, ⟨⟨2⟩, ⟨0x7FF0000000000000⟩⟩,
    ⟨⟨3⟩, ⟨0x3FF0000000000000⟩⟩, ⟨⟨4⟩, ⟨0x0000000000000000⟩⟩,
      ⟨⟨5⟩, ⟨0x8000000000000000⟩⟩,
    ⟨⟨6⟩, ⟨0xBFF0000000000000⟩⟩, ⟨⟨7⟩, ⟨0xFFF0000000000000⟩⟩,
      ⟨⟨8⟩, ⟨0xFFF8000000000000⟩⟩]
      = true := by decide

end Neighbor

end KnnOracle
