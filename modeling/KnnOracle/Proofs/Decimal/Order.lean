/-
The order of numbers.

Numbers are compared by their parts: by kind and sign first, then by
exponents, then by significands. `weight` is the triple that this compares
(`compare_eq`), so that the order of numbers is that of their weights
(`le_iff_weight_le`, `lt_iff_weight_lt`), and is transitive because that one
is (`float_le_trans`). A NaN is comparable with nothing, so that nothing has
to be excluded for it.
-/
import Mathlib

namespace KnnOracle.Decimal

open Float.Model Float.Model.UnpackedFloat

-- ============================================================ the weights

/-- The parts of a number in the order in which they are compared. The two
zeros weigh the same; of negative numbers the larger one weighs less. What a
NaN weighs is not looked at. -/
def weight : UnpackedFloat → ℤ ×ₗ ℤ ×ₗ ℤ
  | .notANumber => toLex (0, toLex (0, 0))
  | .infinity .negative => toLex (-2, toLex (0, 0))
  | .finite .negative m e _ => toLex (-1, toLex (-e, -m))
  | .zero _ => toLex (0, toLex (0, 0))
  | .finite .positive m e _ => toLex (1, toLex (e, m))
  | .infinity .positive => toLex (2, toLex (0, 0))

private theorem compare_triple (k k' e e' m m' : ℤ) :
    compare (toLex (k, toLex (e, m))) (toLex (k', toLex (e', m')))
      = (compare k k').then ((compare e e').then (compare m m')) := by
  rw [Prod.Lex.compare_def, compareLex, compareOn, compareOn,
    Prod.Lex.compare_def]
  rfl

/-- The order of triples, in the form in which the order of canonical parts is
stated. -/
theorem triple_le_iff {k k' e e' m m' : ℤ} :
    toLex (k, toLex (e, m)) ≤ toLex (k', toLex (e', m'))
      ↔ k < k' ∨ k = k' ∧ (e < e' ∨ e = e' ∧ m ≤ m') := by
  rw [Prod.Lex.toLex_le_toLex, Prod.Lex.toLex_le_toLex]

private theorem compare_neg_neg (x y : ℤ) :
    compare (-x) (-y) = (compare x y).swap := by
  have hneg : StrictAnti fun z : ℤ => -z := fun _ _ => neg_lt_neg
  rw [← cmp_eq_compare, ← cmp_eq_compare, cmp_swap]
  exact hneg.cmp_map_eq x y

private theorem compare_cast (x y : ℕ) :
    compare (x : ℤ) (y : ℤ) = compare x y := by
  rw [← cmp_eq_compare, ← cmp_eq_compare, Nat.strictMono_cast.cmp_map_eq]

-- ========================================================= the comparison

variable {a b : UnpackedFloat}

/-- A NaN compares with nothing. -/
private theorem compare_eq_none (h : a = .notANumber ∨ b = .notANumber) :
    a.compare b = none := by
  rcases h with rfl | rfl
  · rfl
  · cases a <;> rfl

/-- Two finite numbers of one sign are compared by exponents and significands,
below zero the other way. -/
theorem compare_finite {s t : Sign} {m m' : ℕ} {e e' : ℤ} (hm : 0 < m)
    (hm' : 0 < m') :
    UnpackedFloat.compare (.finite s m e hm) (.finite t m' e' hm')
      = some (compare (weight (.finite s m e hm))
        (weight (.finite t m' e' hm'))) := by
  cases s with
  | negative =>
      cases t with
      | negative =>
          rw [weight, weight, compare_triple, compare_neg_neg e e',
            compare_neg_neg (m : ℤ) m', compare_cast, ← Ordering.swap_then]
          rfl
      | positive => rfl
  | positive =>
      cases t with
      | negative => rfl
      | positive =>
          rw [weight, weight, compare_triple, compare_cast]
          rfl

/-- Numbers are compared by their weights. The comparison of floats goes
through signs, exponents and significands in this order. -/
theorem compare_eq (ha : a ≠ .notANumber) (hb : b ≠ .notANumber) :
    a.compare b = some (compare (weight a) (weight b)) := by
  cases a with
  | notANumber => exact absurd rfl ha
  | infinity s =>
      cases b with
      | notANumber => exact absurd rfl hb
      | infinity t => cases s <;> cases t <;> rfl
      | zero t => cases s <;> rfl
      | finite t => cases s <;> cases t <;> rfl
  | zero s =>
      cases b with
      | notANumber => exact absurd rfl hb
      | infinity t => cases t <;> rfl
      | zero t => rfl
      | finite t => cases t <;> rfl
  | finite s m e hm =>
      cases b with
      | notANumber => exact absurd rfl hb
      | infinity t => cases s <;> cases t <;> rfl
      | zero t => cases s <;> rfl
      | finite t m' e' hm' => exact compare_finite hm hm'

/-- One number is at most another if it weighs at most as much. Both have to be
numbers, as a NaN is at most nothing. -/
theorem le_iff_weight_le :
    a.le b = true ↔ a ≠ .notANumber ∧ b ≠ .notANumber ∧
      weight a ≤ weight b := by
  by_cases h : a = .notANumber ∨ b = .notANumber
  · rw [UnpackedFloat.le, compare_eq_none h]
    simp only [Option.any_none, Bool.false_eq_true, false_iff]
    tauto
  · obtain ⟨ha, hb⟩ := not_or.mp h
    rw [UnpackedFloat.le, compare_eq ha hb, Option.any_some,
      Ordering.isLE_iff_ne_gt, ← ne_eq, compare_le_iff_le]
    exact ⟨fun hle => ⟨ha, hb, hle⟩, fun hle => hle.2.2⟩

/-- One number is below another if it weighs less. -/
theorem lt_iff_weight_lt :
    a.lt b = true ↔ a ≠ .notANumber ∧ b ≠ .notANumber ∧
      weight a < weight b := by
  by_cases h : a = .notANumber ∨ b = .notANumber
  · rw [UnpackedFloat.lt, compare_eq_none h]
    simp only [beq_iff_eq, reduceCtorEq, false_iff]
    tauto
  · obtain ⟨ha, hb⟩ := not_or.mp h
    rw [UnpackedFloat.lt, compare_eq ha hb, beq_iff_eq, Option.some_inj,
      compare_lt_iff_lt]
    exact ⟨fun hlt => ⟨ha, hb, hlt⟩, fun hlt => hlt.2.2⟩

-- ============================================================== the order

/-- The order of floats is that of their parts. The comparison of the library
is opened here, so that later files need not. -/
theorem float_le_iff {x y : Float} :
    x ≤ y ↔ x.toModel.unpack.le y.toModel.unpack = true := by
  show decide (x.toModel ≤ y.toModel) = true ↔ _
  rw [decide_eq_true_eq]
  rfl

/-- The strict order of floats is that of their parts as well. -/
theorem float_lt_iff {x y : Float} :
    x < y ↔ x.toModel.unpack.lt y.toModel.unpack = true := by
  show decide (x.toModel < y.toModel) = true ↔ _
  rw [decide_eq_true_eq]
  rfl

/-- What is at most a number is at most all numbers above it. Floats have no
instance of an order, as a NaN is not even at most itself. -/
theorem float_le_trans {x y z : Float} (hxy : x ≤ y) (hyz : y ≤ z) :
    x ≤ z := by
  rw [float_le_iff, le_iff_weight_le] at hxy hyz ⊢
  exact ⟨hxy.1, hyz.2.1, hxy.2.2.trans hyz.2.2⟩

end KnnOracle.Decimal
