/-
A service that holds the corpus.

A service without a bias that holds the records of a corpus, in any order,
scores each of them as the oracle does. It ranks them in its own order, so
the two answers to a query can differ where scores tie; but the best `k`
are the same neighbors on both sides if the cut does not go through a tie
(`Corpus.Decides`). `judge_passed` says so in terms of the judgement.
-/
import KnnOracle.Proofs.Comparison.Agreement
import KnnOracle.Proofs.Corpus.Nearest
import KnnOracle.Proofs.Ranking.Cut
import KnnOracle.Proofs.Service.Faithful
import KnnOracle.Validation.Engine

namespace KnnOracle

open Service

-- ============================================================== the scores

/-- The neighbor that a record is to the oracle; a record that cannot be
scored has the score zero. -/
def Record.neighbor (query : List Float) (r : Record) : Neighbor :=
  match similarity query r.values with
  | .ok x => ⟨r.id, .ofFloat x⟩
  | .error _ => ⟨r.id, .ofFloat 0.0⟩

theorem ofFloat_toFloat_neighbor (query : List Float) (r : Record) :
    Score.ofFloat (r.neighbor query).score.toFloat
      = (r.neighbor query).score := by
  unfold Record.neighbor
  split
  · exact congrArg Score.ofFloat (Score.toFloat_ofFloat _)
  · exact congrArg Score.ofFloat (Score.toFloat_ofFloat _)

/-- What the oracle scores it scores record by record. -/
theorem eq_map_neighbor {query : List Float} {records : List Record}
    {scored : List Neighbor} (h : scoreAll cosine query records = .ok scored) :
    (∀ r ∈ records, ∃ x, similarity query r.values = .ok x) ∧
    scored = records.map (Record.neighbor query) := by
  induction records generalizing scored with
  | nil =>
      cases h
      exact ⟨nofun, rfl⟩
  | cons r rest ih =>
      have hall := scoreAll_eq_ok_iff.mp h
      cases hall with
      | @cons _ n _ others hn hothers =>
          obtain ⟨s, hs, rfl⟩ := Record.scoreWith_eq_ok_iff.mp hn
          obtain ⟨hrest, rfl⟩ := ih (scoreAll_eq_ok_iff.mpr hothers)
          cases hx : similarity query r.values with
          | error e =>
              rw [cosine, hx] at hs
              cases hs
          | ok x =>
              rw [cosine, hx] at hs
              cases hs
              refine ⟨List.forall_mem_cons.mpr ⟨⟨x, hx⟩, hrest⟩, ?_⟩
              rw [List.map_cons, Record.neighbor, hx]

namespace Service

/-- What can be scored a service scores as the oracle does, and adds its
bias. -/
theorem scoreRecords_eq_ok {query : List Float} {records : List Record}
    (h : ∀ r ∈ records, ∃ x, similarity query r.values = .ok x) :
    scoreRecords 0.0 query records
      = .ok (records.map fun r => (r.neighbor query).addZero) := by
  induction records with
  | nil => rfl
  | cons r rest ih =>
      obtain ⟨⟨x, hx⟩, hrest⟩ := List.forall_mem_cons.mp h
      rw [scoreRecords, hx]
      dsimp only
      rw [ih hrest, List.map_cons]
      show Except.ok _ = Except.ok ((r.neighbor query).addZero :: _)
      rw [Record.neighbor, hx]
      show Except.ok _ = Except.ok
        ((Neighbor.mk r.id (Score.ofFloat (_ + 0.0))) :: _)
      rw [Score.toFloat_ofFloat]

end Service

-- ========================================================= the best of both

/-- A search for the best `k` has scores that are numbers, and they decide
it: the cut goes through no tie. -/
def Corpus.Decides (c : Corpus) (query : Record) (k : Nat) : Prop :=
  ∃ ranking, c.search query c.size = .ok ranking ∧
    (∀ n ∈ ranking, n.score.toFloat.isFinite = true) ∧
    (k = 0 ∨ c.size ≤ k ∨ ∃ a b, ranking[k - 1]? = some a ∧
      ranking[k]? = some b ∧
      (a.score.toFloat == b.score.toFloat) = false)

/-- A ranking of a corpus names no id twice. -/
theorem nodup_rank_of_scoreAll {c : Corpus} {query : List Float}
    {scored : List Neighbor}
    (h : scoreAll cosine query c.records = .ok scored) :
    ((Neighbor.rank scored).map Neighbor.id).Nodup := by
  rw [((Neighbor.rank_perm scored).map Neighbor.id).nodup_iff,
    ids_of_scoreAll h]
  exact c.nodup

/-- Adding zero keeps the order of the records of a corpus. -/
theorem height_addZero_le (query : List Float) (r t : Record)
    (h : (r.neighbor query).score.height ≤ (t.neighbor query).score.height) :
    (r.neighbor query).addZero.score.height
      ≤ (t.neighbor query).addZero.score.height := by
  rw [← ofFloat_toFloat_neighbor, ← ofFloat_toFloat_neighbor query t] at h
  exact Score.height_add_zero_le h

/-- Scores that are numbers and differ stay apart, so a cut that decides for
the oracle decides for the service. -/
theorem height_addZero_lt {query : List Float} {r t : Record}
    (h : (r.neighbor query).score.height ≤ (t.neighbor query).score.height)
    (hfinite : (t.neighbor query).score.toFloat.isFinite = true)
    (hne :
      ((t.neighbor query).score.toFloat == (r.neighbor query).score.toFloat)
        = false) :
    (r.neighbor query).addZero.score.height
      < (t.neighbor query).addZero.score.height := by
  have hlt : (r.neighbor query).score.height
      < (t.neighbor query).score.height := by
    refine Nat.lt_of_le_of_ne h fun heq => ?_
    -- a number is equal to itself
    rw [Score.height_injective heq, Float.beq_self_eq_false_iff] at hne
    rw [hne] at hfinite
    revert hfinite
    decide
  rw [← ofFloat_toFloat_neighbor, ← ofFloat_toFloat_neighbor query t] at hlt
  exact Score.height_add_zero_lt hlt hne

/-- Where the scores decide, the best of the records in any order are the best
of the corpus. The service may hold them in another order, as batches arrive in
any. -/
theorem take_rank_perm_of_decides {c : Corpus} {query : Record} {k : Nat}
    {stored : List Record} (hstored : stored.Perm c.records)
    (h : c.Decides query k) :
    ∃ expected scored, c.search query k = .ok expected ∧
      (expected.map Neighbor.id).Nodup ∧
      (∀ n ∈ expected, n.score.toFloat.isFinite = true) ∧
      scoreRecords 0.0 query.values stored = .ok scored ∧
      ((Neighbor.rank scored).take k).Perm
        (expected.map Neighbor.addZero) := by
  obtain ⟨ranking, hsearch, hfinite, hcut⟩ := h
  obtain ⟨scored, hscored, rfl, hall⟩ := Corpus.searchWith_eq_ok hsearch
  obtain ⟨hscores, hmap⟩ := eq_map_neighbor hscored
  have hsize : scored.length = c.size := by
    rw [hmap, List.length_map]
    rfl
  have hwhole : (Neighbor.rank scored).take c.size = Neighbor.rank scored := by
    rw [List.take_of_length_le]
    rw [(Neighbor.rank_perm scored).length_eq, hsize]
  rw [hwhole] at hfinite hcut
  have hmem : ∀ n ∈ scored, ∃ r ∈ c.records, r.neighbor query.values = n :=
      fun n hn => by
    rw [hmap] at hn
    exact List.mem_map.mp hn
  have hranked : ∀ n ∈ Neighbor.rank scored, n ∈ scored := fun n hn =>
    (Neighbor.rank_perm scored).mem_iff.mp hn
  refine ⟨(Neighbor.rank scored).take k, _, hall k, ?_,
    fun n hn => hfinite n (List.mem_of_mem_take hn),
    scoreRecords_eq_ok fun r hr => hscores r (hstored.mem_iff.mp hr), ?_⟩
  · rw [List.map_take]
    exact (nodup_rank_of_scoreAll hscored).sublist (List.take_sublist k _)
  · refine Neighbor.take_rank_perm ?_ ?_ ?_
    · rw [hmap, List.map_map]
      exact hstored.map _
    · intro x hx y hy hle
      obtain ⟨r, -, rfl⟩ := hmem x hx
      obtain ⟨t, -, rfl⟩ := hmem y hy
      exact height_addZero_le query.values r t hle
    · rw [hsize]
      refine hcut.imp_right (Or.imp_right ?_)
      rintro ⟨a, b, ha, hb, hne⟩
      refine ⟨a, b, ha, hb, ?_⟩
      have hamem := List.mem_of_getElem? ha
      obtain ⟨t, -, rfl⟩ := hmem a (hranked a hamem)
      obtain ⟨r, -, rfl⟩ := hmem b (hranked b (List.mem_of_getElem? hb))
      exact height_addZero_lt
        (Neighbor.height_le_of_rank (Nat.sub_le k 1) ha hb)
        (hfinite _ hamem) hne

-- =========================================================== the judgement

/-- A faithful service that holds the records of the corpus passes every
query that its scores decide. -/
theorem judge_passed {o : Options} {s : State} {v : Validator}
    {dimension : Nat} {stored : List Record} {query : Record}
    (hfaithful : o.IsFaithful) (htolerance : v.comparator.HasTolerance)
    (hrecall : v.comparator.HasRecall) (hmode : v.comparator.mode = .exact)
    (hholds : s.Holds v.collection dimension stored)
    (hstored : stored.Perm v.corpus.records)
    (hdecides : v.corpus.Decides query v.k) :
    (v.outcome query (meet o s (.search (v.searchOf query))).1).passed
      = true := by
  obtain ⟨expected, scored, hsearch, hnodup, hfinite, hscored, hagree⟩ :=
    take_rank_perm_of_decides hstored hdecides
  have hmeet : meet o s (.search (v.searchOf query))
      = (.ok ((Neighbor.rank scored).take v.k), s) :=
    meet_search hfaithful hholds hscored
  obtain ⟨r, hcompare, hpassed⟩ :=
    Comparator.passed_of_agree htolerance hrecall hmode hnodup hfinite hagree
  have hjudge : v.judge query (.ok ((Neighbor.rank scored).take v.k))
      = .ok r := by
    unfold Validator.judge
    rw [hsearch]
    dsimp only
    rw [hcompare]
  rw [hmeet]
  unfold Validator.outcome Outcome.passed Outcome.report?
  rw [hjudge]
  exact hpassed

end KnnOracle
