/-
What the order of the input decides in a cut ranking.

Two rankings of the same neighbors have the same scores, place by place
(`map_score_rank`): the order they came in shows only where scores tie.
Cutting adds one case. Of a group of ties that the cut goes through, each
ranking keeps the members that came first to it, so the two can hold
different neighbors; those all have the last score that is kept. Above
that score the cut took nothing away (`filter_take_rank`), and both hold
the same.

`TiesOnly` says this of two lists without ranking or cutting anything, and
`tiesOnly_take_rank` says it of two rankings.
-/
import Mathlib.Data.List.Nodup
import KnnOracle.Proofs.Ranking.Cut

namespace KnnOracle.Neighbor

-- ===================================================== what may be different

/-- The ids that stand in an answer with a score. -/
def idsAt (answer : List Neighbor) (s : Score) : List RecordId :=
  (answer.filter fun n => n.score = s).map Neighbor.id

/-- Two answers differ by the choice among ties, and by nothing else. -/
structure TiesOnly (a b : List Neighbor) : Prop where
  /-- At each place stands the same score, as many places as there are. -/
  scores : a.map Neighbor.score = b.map Neighbor.score
  /-- With a score above the last one stand the same ids. -/
  above : ∀ last, a.getLast? = some last → ∀ s, last.score.height < s.height →
    (idsAt a s).Perm (idsAt b s)
  /-- An id that stands in both has the same score in both. -/
  shared : ∀ n ∈ a, ∀ m ∈ b, n.id = m.id → n = m
  /-- An id that stands in one of them only has the last score there. -/
  onlyFirst : ∀ n ∈ a, n.id ∉ b.map Neighbor.id →
    ∀ last, a.getLast? = some last → n.score = last.score
  onlySecond : ∀ n ∈ b, n.id ∉ a.map Neighbor.id →
    ∀ last, b.getLast? = some last → n.score = last.score
  /-- What stands in the one order here and in the other there is tied. -/
  order : ∀ x y, [x, y].Sublist a → [y, x].Sublist b → x.score = y.score

-- ============================================================ two rankings

variable {xs ys list : List Neighbor} {k : Nat} {last : Neighbor}

private theorem rank_perm_rank (h : xs.Perm ys) : (rank xs).Perm (rank ys) :=
  (rank_perm xs).trans (h.trans (rank_perm ys).symm)

/-- The scores of a ranking are the same in whatever order the neighbors
came: falling scores are in one order only. -/
theorem map_score_rank (h : xs.Perm ys) :
    (rank xs).map Neighbor.score = (rank ys).map Neighbor.score := by
  have hfalls : ∀ list : List Neighbor,
      ((rank list).map Neighbor.score).Pairwise fun s t =>
        t.height ≤ s.height :=
    fun list => List.pairwise_map.mpr (pairwise_height_rank list)
  refine List.Perm.eq_of_pairwise (fun s t _ _ hts hst => ?_) (hfalls xs)
    (hfalls ys)
    ((rank_perm_rank h).map _)
  exact Score.height_injective (Nat.le_antisymm hst hts)

-- =================================================================== cut

/-- The last entry that is kept is behind all that are kept and before all that
are cut off. -/
theorem height_last_take (hlast : ((rank list).take k).getLast? = some last) :
    (∀ n ∈ (rank list).take k, last.score.height ≤ n.score.height) ∧
    ∀ n ∈ (rank list).drop k, n.score.height ≤ last.score.height := by
  have hfalls := pairwise_height_rank list
  rw [← List.take_append_drop k (rank list)] at hfalls
  obtain ⟨hkept, -, hcut⟩ := List.pairwise_append.mp hfalls
  refine ⟨fun n hn => ?_, fun n hn =>
    hcut last (List.mem_of_getLast? hlast) n hn⟩
  obtain ⟨front, hfront⟩ := List.getLast?_eq_some_iff.mp hlast
  rw [hfront] at hkept hn
  rcases List.mem_append.mp hn with hn | hn
  · exact (List.pairwise_append.mp hkept).2.2 n hn last
      (List.mem_singleton_self last)
  · obtain rfl := List.mem_singleton.mp hn
    exact Nat.le_refl _

/-- Above the last score that is kept nothing is cut off. -/
theorem filter_take_rank (hlast : ((rank list).take k).getLast? = some last)
    {s : Score} (hs : last.score.height < s.height) :
    ((rank list).take k).filter (fun n => n.score = s)
      = (rank list).filter fun n => n.score = s := by
  have hnone : ((rank list).drop k).filter (fun n => n.score = s) = [] := by
    rw [List.filter_eq_nil_iff]
    intro n hn heq
    have hle := (height_last_take hlast).2 n hn
    rw [of_decide_eq_true heq] at hle
    omega
  conv_rhs => rw [← List.take_append_drop k (rank list),
    List.filter_append, hnone, List.append_nil]

theorem height_le_of_pair {x y : Neighbor}
    (h : [x, y].Sublist ((rank list).take k)) :
    y.score.height ≤ x.score.height := by
  have hpair :=
    (pairwise_height_rank list).sublist (h.trans (List.take_sublist k _))
  exact List.rel_of_pairwise_cons hpair (List.mem_singleton_self y)

section pair

variable (hperm : xs.Perm ys)

include hperm

/-- The scores that make the cut do not depend on the order of the list. Which
neighbors have the last of them may. -/
private theorem map_score_take_rank (k : Nat) :
    ((rank xs).take k).map Neighbor.score
      = ((rank ys).take k).map Neighbor.score := by
  rw [List.map_take, List.map_take, map_score_rank hperm]

/-- Two cut rankings end with one score, although they may end with different
neighbors. -/
theorem exists_getLast_take (hlast : ((rank xs).take k).getLast? = some last) :
    ∃ last', ((rank ys).take k).getLast? = some last' ∧
      last'.score = last.score := by
  have hscores := congrArg List.getLast? (map_score_take_rank hperm k)
  rw [List.getLast?_map, List.getLast?_map, hlast, Option.map_some, eq_comm,
    Option.map_eq_some_iff] at hscores
  exact hscores

/-- All neighbors above the last score make the cut, so their ids do not depend
on the order of the list. -/
private theorem idsAt_take_rank
    (hlast : ((rank xs).take k).getLast? = some last) {s : Score}
    (hs : last.score.height < s.height) :
    (idsAt ((rank xs).take k) s).Perm (idsAt ((rank ys).take k) s) := by
  obtain ⟨last', hlast', hscore⟩ := exists_getLast_take hperm hlast
  rw [idsAt, idsAt, filter_take_rank hlast hs,
    filter_take_rank hlast' (hscore ▸ hs)]
  exact ((rank_perm_rank hperm).filter _).map _

/-- What the other cut ranking does not hold has the last score. So only ties
at the cut can be decided differently. -/
theorem score_eq_last {n : Neighbor} (hn : n ∈ (rank xs).take k)
    (hnot : n.id ∉ ((rank ys).take k).map Neighbor.id)
    (hlast : ((rank xs).take k).getLast? = some last) :
    n.score = last.score := by
  rcases Nat.lt_or_eq_of_le ((height_last_take hlast).1 n hn) with hlt | heq
  · have hid : n.id ∈ idsAt ((rank xs).take k) n.score :=
      List.mem_map_of_mem (List.mem_filter.mpr ⟨hn, decide_eq_true rfl⟩)
    have hother := (idsAt_take_rank hperm hlast hlt).mem_iff.mp hid
    obtain ⟨m, hm, hmid⟩ := List.mem_map.mp hother
    exact absurd (List.mem_map.mpr ⟨m, List.mem_of_mem_filter hm, hmid⟩) hnot
  · exact (Score.height_injective heq).symm

/-- The best `k` of the same neighbors, come in two orders, differ in ties
only. -/
theorem tiesOnly_take_rank (hids : (xs.map Neighbor.id).Nodup) (k : Nat) :
    TiesOnly ((rank xs).take k) ((rank ys).take k) where
  scores := map_score_take_rank hperm k
  above _ hlast _ hs := idsAt_take_rank hperm hlast hs
  shared n hn m hm hid := by
    have hnx : n ∈ xs := (rank_perm xs).mem_iff.mp (List.mem_of_mem_take hn)
    have hmy : m ∈ ys := (rank_perm ys).mem_iff.mp (List.mem_of_mem_take hm)
    exact List.inj_on_of_nodup_map hids hnx (hperm.mem_iff.mpr hmy) hid
  onlyFirst _ hn hnot _ hlast := score_eq_last hperm hn hnot hlast
  onlySecond _ hn hnot _ hlast := score_eq_last hperm.symm hn hnot hlast
  order _ _ hxy hyx :=
    Score.height_injective
      (Nat.le_antisymm (height_le_of_pair hyx) (height_le_of_pair hxy))

end pair

end KnnOracle.Neighbor
