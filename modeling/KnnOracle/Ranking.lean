/-
Neighbors and the order they are ranked in.

A ranked answer lists neighbors by falling score. Neighbors whose scores
tie keep the order they came in, which is why ranking is a stable sort.
-/
import KnnOracle.Record
import KnnOracle.Score

namespace KnnOracle

/-- One entry of a search answer. -/
structure Neighbor where
  id : RecordId
  score : Score
deriving DecidableEq, Inhabited, Repr

namespace Neighbor

/-- The ranking order: the higher score first, and equal only for equal
scores. -/
def rankOrder (a b : Neighbor) : Ordering :=
  compare b.score.height a.score.height

/-- Whether `a` may stand in front of `b`. -/
def mayPrecede (a b : Neighbor) : Bool := a.rankOrder b != .gt

/-- Sorts by falling score; ties stay in the order given. -/
def rank (list : List Neighbor) : List Neighbor :=
  list.mergeSort mayPrecede

/-- Whether no entry has a higher score than the one before it. -/
def isRanked : List Neighbor → Bool
  | [] => true
  | [_] => true
  | a :: b :: rest => a.mayPrecede b && isRanked (b :: rest)

-- ============================================================ the laws

/-- In front stands what has the higher place in the order of scores, or
the same. -/
theorem mayPrecede_iff {a b : Neighbor} :
    a.mayPrecede b = true ↔ b.score.height ≤ a.score.height := by
  rw [mayPrecede, rankOrder, bne_iff_ne, Nat.compare_ne_gt]

/-- Whatever may precede may precede what comes later still. -/
theorem mayPrecede_trans {a b c : Neighbor} (hab : a.mayPrecede b = true)
    (hbc : b.mayPrecede c = true) : a.mayPrecede c = true := by
  rw [mayPrecede_iff] at hab hbc ⊢
  exact Nat.le_trans hbc hab

/-- Of two neighbors one may stand in front. -/
theorem mayPrecede_total (a b : Neighbor) :
    (a.mayPrecede b || b.mayPrecede a) = true := by
  rw [Bool.or_eq_true, mayPrecede_iff, mayPrecede_iff]
  exact Nat.le_total _ _

/-- Ranking only reorders. -/
theorem rank_perm (list : List Neighbor) : (rank list).Perm list :=
  List.mergeSort_perm list mayPrecede

/-- In a ranked list every entry may precede every later one. -/
theorem pairwise_rank (list : List Neighbor) :
    (rank list).Pairwise fun a b => a.mayPrecede b = true := by
  rw [rank]
  apply List.pairwise_mergeSort
  · exact fun _ _ _ => mayPrecede_trans
  · exact mayPrecede_total

end Neighbor

end KnnOracle
