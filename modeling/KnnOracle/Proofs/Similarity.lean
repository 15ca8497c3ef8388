/-
Similarity does not tell its vectors apart.

A product of two numbers does not depend on their order (`float_mul_comm`),
and a dot product adds the products index by index from the same zero in
either order of its vectors (`dot_comm`); sums are never regrouped. So two
vectors with directions have one similarity, bit by bit, and a refusal says
the same of the vectors as they stand in the call: the two lengths in the
order of the call, and of the vectors without a direction the first
(`similarity_exchanged`).
-/
import Mathlib
import KnnOracle.Similarity

namespace KnnOracle

open Float.Model Float.Model.UnpackedFloat

-- =============================================================== products

private theorem sign_mul_comm (s t : Sign) : s * t = t * s := by
  cases s <;> cases t <;> rfl

/-- Rounding sees the product of the mantissas, the sum of the exponents and
the product of the signs. -/
theorem unpacked_mul_comm (u v : UnpackedFloat) :
    UnpackedFloat.mul Format.binary64 u v
      = UnpackedFloat.mul Format.binary64 v u := by
  cases u with
  | notANumber => cases v <;> rfl
  | infinity s => cases v <;> simp [UnpackedFloat.mul, sign_mul_comm]
  | zero s => cases v <;> simp [UnpackedFloat.mul, sign_mul_comm]
  | finite s m e hm =>
      cases v with
      | notANumber => rfl
      | infinity t => simp [UnpackedFloat.mul, sign_mul_comm]
      | zero t => simp [UnpackedFloat.mul, sign_mul_comm]
      | finite t n f hn =>
          simp only [UnpackedFloat.mul]
          rw [sign_mul_comm, Nat.mul_comm, Int.add_comm]

/-- Products of floats do not depend on the order: signs, exponents and
significands are combined symmetrically and rounded after that. -/
private theorem float_mul_comm (x y : Float) : x * y = y * x :=
  congrArg (fun u => Float.ofModel (Float.Model.pack u))
    (unpacked_mul_comm x.toModel.unpack y.toModel.unpack)

-- =================================================================== sums

/-- From any sum that both have reached, the two go on alike. The sum so far is
what the induction needs. -/
theorem dot_comm_from (sum : Float) (a b : List Float) :
    (a.zip b).foldl (fun acc p => acc + p.1 * p.2) sum
      = (b.zip a).foldl (fun acc p => acc + p.1 * p.2) sum := by
  induction a generalizing b sum with
  | nil => rw [List.zip_nil_left, List.zip_nil_right]
  | cons x xs ih =>
      cases b with
      | nil => rw [List.zip_nil_left, List.zip_nil_right]
      | cons y ys =>
          rw [List.zip_cons_cons, List.zip_cons_cons, List.foldl_cons,
            List.foldl_cons, ih, float_mul_comm]

/-- Inner products do not depend on the order. They are added up from the same
side, product by product. -/
private theorem dot_comm (a b : List Float) : dot a b = dot b a :=
  dot_comm_from 0.0 a b

-- ============================================================= similarity

variable {a b : List Float}

private theorem similarity_of_length_ne (h : a.length ≠ b.length) :
    similarity a b = .error (.dimensionMismatch a.length b.length) := by
  rw [similarity, if_pos h]

/-- A left vector without a direction is refused first, also if the right one
has none either. -/
private theorem similarity_of_left (hlength : a.length = b.length)
    (ha : (norm a == 0.0) = true) :
    similarity a b = .error (.degenerate .left) := by
  rw [similarity, if_neg (not_not_intro hlength)]
  simp only [ha, if_true]

private theorem similarity_of_right (hlength : a.length = b.length)
    (ha : (norm a == 0.0) = false) (hb : (norm b == 0.0) = true) :
    similarity a b = .error (.degenerate .right) := by
  rw [similarity, if_neg (not_not_intro hlength)]
  simp only [ha, hb, if_true, Bool.false_eq_true, if_false]

/-- Vectors with directions are compared by the angle between them. The product
of the norms is the one product whose order could matter. -/
private theorem similarity_of_directions (hlength : a.length = b.length)
    (ha : (norm a == 0.0) = false) (hb : (norm b == 0.0) = false) :
    similarity a b = .ok (dot a b / (norm a * norm b)) := by
  rw [similarity, if_neg (not_not_intro hlength)]
  simp only [ha, hb, Bool.false_eq_true, if_false]

/-- Vectors of one length are refused for want of a direction only. -/
theorem degenerate_of_similarity (hlength : a.length = b.length) {e : Fault}
    (h : similarity a b = .error e) : ∃ side, e = .degenerate side := by
  cases ha : norm a == 0.0 with
  | true =>
      rw [similarity_of_left hlength ha] at h
      cases h
      exact ⟨.left, rfl⟩
  | false =>
      cases hb : norm b == 0.0 with
      | true =>
          rw [similarity_of_right hlength ha hb] at h
          cases h
          exact ⟨.right, rfl⟩
      | false =>
          rw [similarity_of_directions hlength ha hb] at h
          cases h

/-- What is said of two vectors, and of the two exchanged. -/
structure Exchanged (a b : List Float) : Prop where
  /-- Different lengths are refused whatever the components are. -/
  lengths : a.length ≠ b.length →
    similarity a b = .error (.dimensionMismatch a.length b.length) ∧
    similarity b a = .error (.dimensionMismatch b.length a.length)
  /-- Of two vectors without a direction the left one of the call is named. -/
  neither : a.length = b.length → (norm a == 0.0) = true →
    (norm b == 0.0) = true →
    similarity a b = .error (.degenerate .left) ∧
      similarity b a = .error (.degenerate .left)
  onlySecond : a.length = b.length → (norm a == 0.0) = true →
    (norm b == 0.0) = false →
    similarity a b = .error (.degenerate .left) ∧
      similarity b a = .error (.degenerate .right)
  onlyFirst : a.length = b.length → (norm a == 0.0) = false →
    (norm b == 0.0) = true →
    similarity a b = .error (.degenerate .right) ∧
      similarity b a = .error (.degenerate .left)
  /-- Two vectors with directions have one similarity, which may be the NaN. -/
  both : a.length = b.length → (norm a == 0.0) = false →
    (norm b == 0.0) = false →
    ∃ x, similarity a b = .ok x ∧ similarity b a = .ok x

/-- Similarity is symmetric, its refusals included: those name the two sides,
which are exchanged with the arguments. -/
theorem similarity_exchanged (a b : List Float) : Exchanged a b where
  lengths h := ⟨similarity_of_length_ne h, similarity_of_length_ne (Ne.symm h)⟩
  neither hlength ha hb :=
    ⟨similarity_of_left hlength ha, similarity_of_left hlength.symm hb⟩
  onlySecond hlength ha hb :=
    ⟨similarity_of_left hlength ha, similarity_of_right hlength.symm hb ha⟩
  onlyFirst hlength ha hb :=
    ⟨similarity_of_right hlength ha hb, similarity_of_left hlength.symm hb⟩
  both hlength ha hb := by
    refine ⟨dot a b / (norm a * norm b),
      similarity_of_directions hlength ha hb, ?_⟩
    rw [dot_comm a b, float_mul_comm (norm a)]
    exact similarity_of_directions hlength.symm hb ha

end KnnOracle
