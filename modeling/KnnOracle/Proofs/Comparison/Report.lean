/-
What a comparison reports.

A comparison makes one pass over each answer, builds two tables of scores
and reads five lists off them. `Comparator.Judges` says what the report
has to be in terms of the two answers alone: ids in the order of first
occurrences, first scores, second occurrences. No pass and no table
occurs in it.

# The main statement

`compare_judges` is a case distinction on the limits, and the three cases
exclude each other: a tolerance that is no limit is refused, whatever the
recall is; so is, under a good tolerance, a recall outside its range;
under good limits there is a report, and it judges the answers. Nothing
is asked of the answers: ids may repeat on both sides, in any order, and
scores may be any bits.

The counts tie the two sides together. The matched ids are read off the
oracle's answer and the false positives off the service's, yet together
they are as many as the service's different ids, because being named by
both is the same from either side (`perm_named_by_both`).
-/
import Mathlib.Data.List.Perm.Basic
import KnnOracle.Proofs.Comparison.Occurrences

namespace KnnOracle

-- ====================================================== numbers that are none

/-- A NaN is at most no number, so a difference that is a NaN exceeds every
tolerance. -/
theorem not_le_of_isNaN {x y : Float} (h : x.isNaN = true) : ¬ x ≤ y := by
  intro hle
  change decide (x.toModel ≤ y.toModel) = true at hle
  rw [decide_eq_true_eq] at hle
  change x.toModel.unpack.le y.toModel.unpack = true at hle
  change x.toModel.unpack.isNaN = true at h
  unfold Float.Model.UnpackedFloat.le at hle
  cases hx : x.toModel.unpack with
  | notANumber =>
      rw [hx] at hle
      cases hle
  | infinity _ => rw [hx] at h; cases h
  | zero _ => rw [hx] at h; cases h
  | finite _ _ _ _ => rw [hx] at h; cases h

namespace Comparator

-- ============================================================ the limits

/-- The tolerance can be a limit: a number, and not a negative one. -/
def HasTolerance (c : Comparator) : Prop :=
  c.tolerance.isFinite = true ∧ ¬ c.tolerance < 0.0

/-- The recall can be a limit: it lies between zero and one. -/
def HasRecall (c : Comparator) : Prop := 0.0 ≤ c.minRecall ∧ c.minRecall ≤ 1.0

instance (c : Comparator) : Decidable c.HasTolerance :=
  inferInstanceAs (Decidable (_ ∧ _))

instance (c : Comparator) : Decidable c.HasRecall :=
  inferInstanceAs (Decidable (_ ∧ _))

/-- The tolerance is looked at first. Where both limits are none, it is the one
that is reported. -/
theorem thresholdFault?_eq (c : Comparator) :
    c.thresholdFault?
      = if c.HasTolerance then
          if c.HasRecall then none
          else some (.invalidThreshold .minRecall c.minRecall)
        else some (.invalidThreshold .tolerance c.tolerance) := by
  unfold thresholdFault? HasTolerance HasRecall
  by_cases hfinite : c.tolerance.isFinite = true
  · by_cases hnegative : c.tolerance < 0.0
    · simp [hfinite, hnegative]
    · by_cases hrecall : 0.0 ≤ c.minRecall ∧ c.minRecall ≤ 1.0
      · simp [hfinite, hnegative, hrecall]
      · simp [hfinite, hnegative, hrecall]
  · simp [hfinite]

-- ========================================================= the judgement

/-- The report says of two answers what there is to say. -/
structure Judges (c : Comparator) (oracle service : List Neighbor)
    (r : Report) : Prop where
  mode_eq : r.mode = c.mode
  tolerance_eq : r.tolerance = c.tolerance
  minRecall_eq : r.minRecall = c.minRecall
  k_eq : r.k = (distinctIds oracle).length
  /-- Matched are the oracle's ids that occur in the service's answer. -/
  matched_ids : r.matched.map ScoreDelta.id
    = (distinctIds oracle).filter fun id => id ∈ service.map Neighbor.id
  /-- What counts on each side is the first occurrence. -/
  matched_scores : ∀ m ∈ r.matched,
    firstScore? oracle m.id = some m.oracleScore ∧
    firstScore? service m.id = some m.serviceScore ∧
    m.delta = (m.oracleScore.toFloat - m.serviceScore.toFloat).abs
  /-- Missed are the oracle's other ids. -/
  falseNegatives_eq : r.falseNegatives
    = (distinctIds oracle).filter fun id => id ∉ service.map Neighbor.id
  /-- No id of the oracle is both matched and missed, and none is neither. -/
  split : ∀ id ∈ distinctIds oracle,
    (id ∈ r.matched.map ScoreDelta.id ↔ id ∉ r.falseNegatives)
  /-- Surplus are the service's ids that do not occur in the oracle's
  answer. -/
  falsePositives_eq : r.falsePositives
    = (distinctIds service).filter fun id => id ∉ oracle.map Neighbor.id
  oracle_count : r.matched.length + r.falseNegatives.length = r.k
  service_count : r.matched.length + r.falsePositives.length
    = (distinctIds service).length
  /-- The deviations that are too large, in the order of `matched`. -/
  scoreMismatches_eq : r.scoreMismatches = r.matched.filter fun m =>
    ¬ m.delta ≤ c.tolerance
  /-- A deviation that is no number is too large. -/
  nan_mem_scoreMismatches : ∀ m ∈ r.matched, m.delta.isNaN = true →
    m ∈ r.scoreMismatches
  /-- Ids that the service named twice, in the order of second occurrences. -/
  duplicates_eq : r.duplicates = repeatedIds service
  /-- However often an id was repeated, it is listed once. -/
  duplicates_nodup : r.duplicates.Nodup
  mem_duplicates : ∀ id, id ∈ r.duplicates ↔
    2 ≤ (service.map Neighbor.id).count id
  recallRate_eq : r.recallRate
    = if r.k = 0 then 1.0 else Float.ofNat r.matched.length / Float.ofNat r.k
  serviceRanked_eq : r.serviceRanked = Neighbor.isRanked service

-- ========================================================== the matching

/-- A first occurrence is matched if the other side has a score for its
id, and then with that score. -/
theorem delta?_scoresOf_separate (service : List Neighbor) (n : Neighbor) :
    delta? (scoresOf (separate {} service).1) n
      = (firstScore? service n.id).map fun s =>
          ⟨n.id, n.score, s, (n.score.toFloat - s.toFloat).abs⟩ := by
  unfold delta?
  rw [getElem?_scoresOf_separate]

/-- The program makes differences for what it finds in the table. These are the
ids that both lists have, in the order of the first. -/
private theorem map_id_filterMap_delta? (service list : List Neighbor) :
    (list.filterMap (delta? (scoresOf (separate {} service).1))).map
      ScoreDelta.id
      = (list.map Neighbor.id).filter fun id =>
        id ∈ service.map Neighbor.id := by
  induction list with
  | nil => rfl
  | cons n rest ih =>
      rw [List.filterMap_cons, delta?_scoresOf_separate, List.map_cons]
      by_cases hn : n.id ∈ service.map Neighbor.id
      · obtain ⟨s, hs⟩ :=
          Option.isSome_iff_exists.mp (isSome_firstScore?.mpr hn)
        rw [List.filter_cons, if_pos (by simpa using hn), hs, ← ih]
        rfl
      · have hnone := hn
        rw [← isSome_firstScore?, Option.not_isSome_iff_eq_none] at hnone
        rw [List.filter_cons, if_neg (by simpa using hn), hnone, ← ih]
        rfl

/-- What the other side has no score for are the ids that do not occur there.
Used both ways, it gives what is missing and what is too much. -/
theorem map_id_filter_not_contains (list other : List Neighbor) :
    ((separate {} list).1.filter fun n =>
        !(scoresOf (separate {} other).1).contains n.id).map Neighbor.id
      = (distinctIds list).filter fun id => id ∉ other.map Neighbor.id := by
  rw [← map_id_separate, List.filter_map]
  congr 1
  apply List.filter_congr
  intro n _
  rw [contains_scoresOf_separate, Function.comp_apply, decide_not]

/-- Both sides name the same ids in common, each in its own order. So it does
not matter on which side matches are counted. -/
theorem perm_named_by_both (oracle service : List Neighbor) :
    ((distinctIds oracle).filter fun id => id ∈ service.map Neighbor.id).Perm
      ((distinctIds service).filter fun id =>
        id ∈ oracle.map Neighbor.id) := by
  rw [List.perm_ext_iff_of_nodup ((nodup_distinctIds oracle).filter _)
    ((nodup_distinctIds service).filter _)]
  intro id
  rw [List.mem_filter, List.mem_filter, mem_distinctIds, mem_distinctIds,
    decide_eq_true_eq, decide_eq_true_eq]
  exact And.comm

/-- Named or not, every id is counted once, so matches and misses add up. -/
private theorem length_filter_mem_add (ids named : List RecordId) :
    (ids.filter fun id => id ∈ named).length
      + (ids.filter fun id => id ∉ named).length
      = ids.length := by
  have h :=
    List.length_eq_length_filter_add (l := ids) fun id => decide (id ∈ named)
  simp only [decide_not]
  exact h.symm

-- ================================================== the main statement

/-- Under limits that are limits, a report judges the answers. All that is said
of comparisons later on is derived from such a judgement, and not from the
program. -/
theorem exists_judges {c : Comparator} (htolerance : c.HasTolerance)
    (hrecall : c.HasRecall) (oracle service : List Neighbor) :
    ∃ r, c.compare oracle service = .ok r ∧ c.Judges oracle service r := by
  unfold compare
  rw [thresholdFault?_eq, if_pos htolerance, if_pos hrecall]
  have hmatched := map_id_filterMap_delta? service (separate {} oracle).1
  rw [map_id_separate] at hmatched
  have hmissed := map_id_filter_not_contains oracle service
  have hsurplus := map_id_filter_not_contains service oracle
  have hk : (separate {} oracle).1.length = (distinctIds oracle).length := by
    rw [← map_id_separate, List.length_map]
  have hlength : ((separate {} oracle).1.filterMap
        (delta? (scoresOf (separate {} service).1))).length
      = ((distinctIds oracle).filter fun id =>
        id ∈ service.map Neighbor.id).length := by
    rw [← hmatched, List.length_map]
  refine ⟨_, rfl, ?_⟩
  constructor
  case mode_eq => rfl
  case tolerance_eq => rfl
  case minRecall_eq => rfl
  case k_eq => exact hk
  case matched_ids => exact hmatched
  case matched_scores =>
    intro m hm
    obtain ⟨n, hn, hdelta⟩ := List.mem_filterMap.mp hm
    rw [delta?_scoresOf_separate, Option.map_eq_some_iff] at hdelta
    obtain ⟨s, hs, rfl⟩ := hdelta
    exact ⟨firstScore?_of_mem_separate hn, hs, rfl⟩
  case falseNegatives_eq => exact hmissed
  case split =>
    intro id hid
    show id ∈ List.map _ _ ↔ id ∉ List.map _ _
    rw [hmatched, hmissed, List.mem_filter, List.mem_filter, decide_eq_true_eq,
      decide_eq_true_eq, not_and_not_right]
    exact ⟨fun h _ => h.2, fun h => ⟨hid, h hid⟩⟩
  case falsePositives_eq => exact hsurplus
  case oracle_count =>
    show List.length _ + List.length (List.map _ _) = _
    rw [hlength, hmissed, length_filter_mem_add, hk]
  case service_count =>
    show List.length _ + List.length (List.map _ _) = _
    rw [hlength, hsurplus, (perm_named_by_both oracle service).length_eq,
      length_filter_mem_add]
  case scoreMismatches_eq =>
    apply List.filter_congr
    intro m _
    rw [decide_not]
  case nan_mem_scoreMismatches =>
    intro m hm hnan
    refine List.mem_filter.mpr ⟨hm, ?_⟩
    rw [decide_eq_false (not_le_of_isNaN hnan)]
    rfl
  case duplicates_eq => exact eraseDups_repeats service
  case duplicates_nodup => exact nodup_distinctIds _
  case mem_duplicates =>
    intro id
    rw [← mem_map_id_repeats]
    exact mem_distinctIds
  case recallRate_eq =>
    simp only [List.isEmpty_iff, List.length_eq_zero_iff]
  case serviceRanked_eq => rfl

/-- A tolerance that is no limit is refused before anything is compared, and so
before the recall is looked at. -/
theorem compare_of_not_hasTolerance {c : Comparator}
    (htolerance : ¬ c.HasTolerance) (oracle service : List Neighbor) :
    c.compare oracle service
      = .error (.invalidThreshold .tolerance c.tolerance) := by
  unfold compare
  rw [thresholdFault?_eq, if_neg htolerance]

/-- So is a recall that is no limit, if the tolerance is one: the tolerance is
looked at first. -/
theorem compare_of_not_hasRecall {c : Comparator} (htolerance : c.HasTolerance)
    (hrecall : ¬ c.HasRecall) (oracle service : List Neighbor) :
    c.compare oracle service
      = .error (.invalidThreshold .minRecall c.minRecall) := by
  unfold compare
  rw [thresholdFault?_eq, if_pos htolerance, if_neg hrecall]

/-- A comparison refuses a tolerance that is none before a recall that is
none, and otherwise its report judges the two answers. -/
theorem compare_judges (c : Comparator) (oracle service : List Neighbor) :
    (¬ c.HasTolerance ∧
      c.compare oracle service
        = .error (.invalidThreshold .tolerance c.tolerance)) ∨
    (c.HasTolerance ∧ ¬ c.HasRecall ∧
      c.compare oracle service
        = .error (.invalidThreshold .minRecall c.minRecall)) ∨
    (c.HasTolerance ∧ c.HasRecall ∧
      ∃ r, c.compare oracle service = .ok r ∧ c.Judges oracle service r) := by
  by_cases htolerance : c.HasTolerance
  · right
    by_cases hrecall : c.HasRecall
    · exact Or.inr ⟨htolerance, hrecall,
        exists_judges htolerance hrecall oracle service⟩
    · refine Or.inl ⟨htolerance, hrecall, ?_⟩
      unfold compare
      rw [thresholdFault?_eq, if_pos htolerance, if_neg hrecall]
  · refine Or.inl ⟨htolerance, ?_⟩
    unfold compare
    rw [thresholdFault?_eq, if_neg htolerance]

end Comparator

end KnnOracle
