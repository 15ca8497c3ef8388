/-
Ranking with places: every entry of a ranked list still knows where it
stood in the list that was ranked.

# The order

Scores alone do not decide a ranking, since scores can tie. A *placed*
neighbor carries its position in the unranked list, and `Neighbor.Ahead`
is the order that a stable sort realizes: the higher score first, and of
equal scores the earlier position. It is a strict order in which any two
entries with different positions can be told apart, so it leaves a
ranking no choice.

# The main statement

`exists_places_of_rank`: a ranked list is its placed version without the
positions, the placed version is the numbered input in another order, and
`Ahead` holds between any two of its entries. Whoever cuts a ranked list
cuts the placed version in the same place and has `Ahead` across the cut.
-/
import KnnOracle.Ranking

namespace KnnOracle.Neighbor

-- ============================================================ the order

/-- Of two neighbors with their positions, the first has the higher score,
or the same score and the earlier position. -/
def Ahead (a b : Neighbor × Nat) : Prop :=
  b.1.score.height < a.1.score.height ∨ (a.1.score = b.1.score ∧ a.2 < b.2)

-- ============================================== the order of the sort

/-- The tie-breaking comparison by which stability is stated in the
library is `Ahead`, up to entries with the same position. -/
theorem ahead_of_zipIdxLE {a b : Neighbor × Nat}
    (h : List.zipIdxLE mayPrecede a b = true) (hne : a.2 ≠ b.2) :
    Ahead a b := by
  unfold List.zipIdxLE at h
  by_cases hab : a.1.mayPrecede b.1 = true
  · rw [if_pos hab] at h
    by_cases hba : b.1.mayPrecede a.1 = true
    · rw [if_pos hba, decide_eq_true_eq] at h
      rw [mayPrecede_iff] at hab hba
      have hscore := Score.height_injective (Nat.le_antisymm hba hab)
      exact Or.inr ⟨hscore, Nat.lt_of_le_of_ne h hne⟩
    · rw [mayPrecede_iff, Nat.not_le] at hba
      exact Or.inl hba
  · rw [if_neg hab] at h
    cases h

/-- Each position is given to one neighbor, which breaks every tie. -/
private theorem pairwise_zipIdx (list : List Neighbor) :
    list.zipIdx.Pairwise fun a b => a.2 ≠ b.2 := by
  have hnodup : (list.zipIdx.map Prod.snd).Nodup := by
    rw [List.zipIdx_map_snd]
    exact List.nodup_range'
  exact List.pairwise_map.mp hnodup

/-- A ranked list is the numbered list, put in the order `Ahead`, without its
numbers. The numbers are what stability is about. -/
theorem exists_places_of_rank (list : List Neighbor) :
    ∃ placed : List (Neighbor × Nat),
      placed.Perm list.zipIdx ∧ placed.map Prod.fst = rank list ∧
        placed.Pairwise Ahead := by
  refine ⟨list.zipIdx.mergeSort (List.zipIdxLE mayPrecede), ?_, ?_, ?_⟩
  · exact List.mergeSort_perm _ _
  · exact List.mergeSort_zipIdx
  · have hdistinct :=
      (List.mergeSort_perm list.zipIdx
        (List.zipIdxLE mayPrecede)).symm.pairwise
      (pairwise_zipIdx list) fun h => h.symm
    have hsorted : (list.zipIdx.mergeSort (List.zipIdxLE mayPrecede)).Pairwise
        fun a b => List.zipIdxLE mayPrecede a b = true := by
      apply List.pairwise_mergeSort
      · apply List.zipIdxLE_trans
        exact fun _ _ _ => mayPrecede_trans
      · exact List.zipIdxLE_total mayPrecede_total
    exact (hsorted.and hdistinct).imp fun h => ahead_of_zipIdxLE h.1 h.2

end KnnOracle.Neighbor
