/-
Cutting a ranking where scores differ.

Which of two tied neighbors ranks first depends on the order they came in,
so the best `k` do too, if the `k`-th ties with the next. If it does not,
the best `k` are those that score at least as high as it does, and that
says nothing about an order. `take_rank_perm` allows for more: the scores
may be changed on the way, as long as the change keeps their order and
keeps the two at the cut apart.
-/
import Mathlib.Data.List.Perm.Basic
import KnnOracle.Ranking

namespace KnnOracle

-- =============================================== what the front has in common

section prefixes

variable {α : Type} {p : α → Bool} {list : List α}

/-- Where a property is handed on to what stands in front, those that have
it are a front part. -/
theorem filter_eq_take_countP
    (h : list.Pairwise fun x y => p y = true → p x = true) :
    list.filter p = list.take (list.countP p) := by
  induction list with
  | nil => rfl
  | cons x rest ih =>
      obtain ⟨hx, hrest⟩ := List.pairwise_cons.mp h
      cases hp : p x with
      | true =>
          rw [List.filter_cons_of_pos hp, List.countP_cons_of_pos hp,
            List.take_succ_cons,
          ih hrest]
      | false =>
          -- then none behind has it
          have hnone : ∀ y ∈ rest, ¬p y = true := fun y hy hpy => by
            rw [hx y hy hpy] at hp
            cases hp
          rw [List.filter_eq_nil_iff.mpr, List.countP_eq_zero.mpr,
            List.take_zero]
          · simpa [hp] using hnone
          · simpa [hp] using hnone

end prefixes

namespace Neighbor

variable {scored stored : List Neighbor} {f : Neighbor → Neighbor} {k : Nat}

/-- In a ranking, heights fall. Of the order nothing else is used where lists
are cut. -/
theorem pairwise_height_rank (list : List Neighbor) :
    (rank list).Pairwise fun x y => y.score.height ≤ x.score.height :=
  (pairwise_rank list).imp mayPrecede_iff.mp

/-- In a ranked list no score stands higher than an earlier one. -/
theorem height_le_of_rank {list : List Neighbor} {i j : Nat} {a b : Neighbor}
    (hij : i ≤ j) (ha : (rank list)[i]? = some a)
    (hb : (rank list)[j]? = some b) :
    b.score.height ≤ a.score.height := by
  obtain ⟨hi, rfl⟩ := List.getElem?_eq_some_iff.mp ha
  obtain ⟨hj, rfl⟩ := List.getElem?_eq_some_iff.mp hb
  rcases Nat.lt_or_eq_of_le hij with hlt | rfl
  · exact List.pairwise_iff_getElem.mp (pairwise_height_rank list) i j
      hi hj hlt
  · exact Nat.le_refl _

/-- Those in front of a cut are at least as high as the last of them, and
those behind at most as high as the next. -/
theorem cut_rank {list : List Neighbor} {a b : Neighbor}
    (ha : (rank list)[k]? = some a) (hb : (rank list)[k + 1]? = some b) :
    (∀ x ∈ (rank list).take (k + 1), a.score.height ≤ x.score.height) ∧
    ∀ y ∈ (rank list).drop (k + 1), y.score.height ≤ b.score.height := by
  constructor
  · intro x hx
    obtain ⟨i, hi, rfl⟩ := List.mem_take_iff_getElem.mp hx
    exact height_le_of_rank (by omega) (List.getElem?_eq_getElem _) ha
  · intro y hy
    obtain ⟨i, hi, rfl⟩ := List.mem_drop_iff_getElem.mp hy
    exact height_le_of_rank (by omega) hb (List.getElem?_eq_getElem _)

/-- A ranking cut between two whose scores are kept apart holds, on both
sides of the cut, the same neighbors as any other ranking of them. -/
theorem take_rank_perm_of_cut {a b : Neighbor}
    (hperm : stored.Perm (scored.map f))
    (hmono : ∀ x ∈ scored, ∀ y ∈ scored, x.score.height ≤ y.score.height →
      (f x).score.height ≤ (f y).score.height)
    (ha : (rank scored)[k]? = some a) (hb : (rank scored)[k + 1]? = some b)
    (hcut : (f b).score.height < (f a).score.height) :
    ((rank stored).take (k + 1)).Perm
      (((rank scored).take (k + 1)).map f) := by
  obtain ⟨hfront, hback⟩ := cut_rank ha hb
  have hmem : ∀ x ∈ rank scored, x ∈ scored :=
    fun x hx => (rank_perm scored).mem_iff.mp hx
  let p : Neighbor → Bool :=
    fun n => decide ((f a).score.height ≤ n.score.height)
  -- what is at least as high as the last in front is the front
  have hfilter : ((rank scored).map f).filter p
      = ((rank scored).take (k + 1)).map f := by
    have hall : ∀ x ∈ ((rank scored).take (k + 1)).map f, p x = true := by
      intro x hx
      obtain ⟨n, hn, rfl⟩ := List.mem_map.mp hx
      exact decide_eq_true (hmono a (hmem a (List.mem_of_getElem? ha)) n
        (hmem n (List.mem_of_mem_take hn)) (hfront n hn))
    have hnone : ∀ y ∈ ((rank scored).drop (k + 1)).map f, ¬p y = true := by
      intro y hy
      obtain ⟨n, hn, rfl⟩ := List.mem_map.mp hy
      have hle := hmono n (hmem n (List.mem_of_mem_drop hn)) b
        (hmem b (List.mem_of_getElem? hb)) (hback n hn)
      simp only [p, decide_eq_true_eq]
      omega
    rw [← List.take_append_drop (k + 1) (rank scored), List.map_append,
      List.filter_append,
      List.filter_eq_self.mpr hall, List.filter_eq_nil_iff.mpr hnone,
        List.append_nil,
      List.take_append_drop]
  have hsame : (rank stored).Perm ((rank scored).map f) :=
    (rank_perm stored).trans (hperm.trans ((rank_perm scored).map f).symm)
  have hfiltered := hsame.filter p
  rw [hfilter] at hfiltered
  have hcount : (rank stored).countP p = k + 1 := by
    rw [List.countP_eq_length_filter, hfiltered.length_eq, List.length_map,
      List.length_take]
    have hlt := (List.getElem?_eq_some_iff.mp hb).1
    omega
  have hprefix : (rank stored).Pairwise fun x y => p y = true → p x = true :=
    (pairwise_height_rank stored).imp fun hle hp => by
      simp only [p, decide_eq_true_eq] at hp ⊢
      omega
  rw [filter_eq_take_countP hprefix, hcount] at hfiltered
  exact hfiltered

/-- Ranked as they are or after a change of scores, in whatever order they
came, the best `k` are the same, unless the cut goes through a tie. -/
theorem take_rank_perm (hperm : stored.Perm (scored.map f))
    (hmono : ∀ x ∈ scored, ∀ y ∈ scored, x.score.height ≤ y.score.height →
      (f x).score.height ≤ (f y).score.height)
    (hcut : k = 0 ∨ scored.length ≤ k ∨ ∃ a b, (rank scored)[k - 1]? = some a ∧
      (rank scored)[k]? = some b ∧ (f b).score.height < (f a).score.height) :
    ((rank stored).take k).Perm (((rank scored).take k).map f) := by
  rcases hcut with rfl | hall | ⟨a, b, ha, hb, hlt⟩
  · exact List.Perm.refl _
  · have hstored : (rank stored).length ≤ k := by
      rw [(rank_perm stored).length_eq, hperm.length_eq, List.length_map]
      exact hall
    have hscored : (rank scored).length ≤ k := by
      rw [(rank_perm scored).length_eq]
      exact hall
    rw [List.take_of_length_le hstored, List.take_of_length_le hscored]
    exact (rank_perm stored).trans
      (hperm.trans ((rank_perm scored).map f).symm)
  · cases k with
    | zero => exact List.Perm.refl _
    | succ k => exact take_rank_perm_of_cut hperm hmono ha hb hlt

end Neighbor

end KnnOracle
