/-
Cosine similarity.

`similarity a b` is the dot product over the product of the norms, in
binary64. The sums start at the positive zero and run in index order, so
that exchanging the vectors exchanges only the factors of each product.
The quotient is not clamped: rounding may push it past one.
-/
import KnnOracle.Fault

namespace KnnOracle

/-- The sum of the products, index by index. -/
def dot (a b : List Float) : Float :=
  (a.zip b).foldl (fun acc p => acc + p.1 * p.2) 0.0

/-- The Euclidean norm. -/
def norm (a : List Float) : Float :=
  (a.foldl (fun acc x => acc + x * x) 0.0).sqrt

/-- The cosine of the angle between two vectors. Different lengths are
refused first, then a zero norm on the left, then one on the right. -/
def similarity (a b : List Float) : Except Fault Float :=
  if a.length ≠ b.length then .error (.dimensionMismatch a.length b.length)
  else
    let normA := norm a
    if normA == 0.0 then .error (.degenerate .left)
    else
      let normB := norm b
      if normB == 0.0 then .error (.degenerate .right)
      else .ok (dot a b / (normA * normB))

end KnnOracle
