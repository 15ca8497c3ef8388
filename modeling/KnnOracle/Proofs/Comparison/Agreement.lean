/-
Answers that agree.

An answer agrees with the oracle's if it names the same neighbors, in any
order, with scores to which zero was added. Held to be exact, it passes,
whatever the tolerance is: no id is missed, none is surplus or named
twice, and no deviation is larger than zero.
-/
import KnnOracle.Proofs.Comparison.Report
import KnnOracle.Proofs.Ranking.Zero

namespace KnnOracle

/-- The neighbor with zero added to its score. -/
def Neighbor.addZero (n : Neighbor) : Neighbor :=
  ⟨n.id, .ofFloat (n.score.toFloat + 0.0)⟩

/-- The score that is looked up for an id is that of one of its neighbors, so
that a statement about neighbors says something about scores. -/
theorem exists_of_firstScore? {list : List Neighbor} {id : RecordId}
    {s : Score} (h : firstScore? list id = some s) :
    ∃ n ∈ list, n.id = id ∧ n.score = s := by
  unfold firstScore? at h
  obtain ⟨n, hfind, hscore⟩ := Option.map_eq_some_iff.mp h
  exact ⟨n, List.mem_of_find?_eq_some hfind,
    by simpa using List.find?_some hfind, hscore⟩

namespace Comparator

variable {c : Comparator} {oracle service : List Neighbor} {r : Report}

/-- Answers that agree name the same ids. So no id is missing or too much, and
what is left to be compared are the scores. -/
theorem map_id_perm (hagree : service.Perm (oracle.map Neighbor.addZero)) :
    (service.map Neighbor.id).Perm (oracle.map Neighbor.id) := by
  have h := hagree.map Neighbor.id
  rwa [List.map_map] at h

/-- No score deviates by more than zero, which is the least tolerance that a
report can be held to. This holds although the service adds zero to its
scores. -/
theorem delta_of_agree (hr : c.Judges oracle service r)
    (hnodup : (oracle.map Neighbor.id).Nodup)
    (hfinite : ∀ n ∈ oracle, n.score.toFloat.isFinite = true)
    (hagree : service.Perm (oracle.map Neighbor.addZero)) :
    ∀ m ∈ r.matched, m.delta = 0.0 := by
  intro m hm
  obtain ⟨horacle, hservice, hdelta⟩ := hr.matched_scores m hm
  obtain ⟨n, hn, hid, hscore⟩ := exists_of_firstScore? horacle
  obtain ⟨n', hn', hid', hscore'⟩ := exists_of_firstScore? hservice
  obtain ⟨source, hsource, rfl⟩ := List.mem_map.mp (hagree.mem_iff.mp hn')
  -- the oracle has one neighbor with the id
  obtain rfl : source = n :=
    List.inj_on_of_nodup_map hnodup hsource hn (hid'.trans hid.symm)
  rw [hdelta, ← hscore, ← hscore']
  show (source.score.toFloat
    - (Score.ofFloat (source.score.toFloat + 0.0)).toFloat).abs = 0.0
  rw [Score.toFloat_ofFloat]
  exact sub_add_zero_abs (hfinite source hn)

/-- An answer that agrees with the oracle's passes as exact. A service that
holds the corpus passes its validation by this. -/
theorem passed_of_agree (htolerance : c.HasTolerance) (hrecall : c.HasRecall)
    (hmode : c.mode = .exact) (hnodup : (oracle.map Neighbor.id).Nodup)
    (hfinite : ∀ n ∈ oracle, n.score.toFloat.isFinite = true)
    (hagree : service.Perm (oracle.map Neighbor.addZero)) :
    ∃ r, c.compare oracle service = .ok r ∧ r.passed = true := by
  obtain ⟨r, hcompare, hr⟩ := exists_judges htolerance hrecall oracle service
  refine ⟨r, hcompare, ?_⟩
  have hids := map_id_perm hagree
  have hmismatches : r.scoreMismatches = [] := by
    rw [hr.scoreMismatches_eq, List.filter_eq_nil_iff]
    intro m hm
    have hle := zero_le_of_not_lt htolerance.1 htolerance.2
    simp [delta_of_agree hr hnodup hfinite hagree m hm, hle]
  have hduplicates : r.duplicates = [] := by
    refine List.eq_nil_iff_forall_not_mem.mpr fun id hid => ?_
    have htwice := (hr.mem_duplicates id).mp hid
    have honce := List.nodup_iff_count_le_one.mp (hids.nodup_iff.mpr hnodup) id
    omega
  have hsurplus : r.falsePositives = [] := by
    rw [hr.falsePositives_eq, List.filter_eq_nil_iff]
    intro id hid
    have hmem := hids.mem_iff.mp (mem_distinctIds.mp hid)
    simpa using hmem
  have hmissed : r.falseNegatives = [] := by
    rw [hr.falseNegatives_eq, List.filter_eq_nil_iff]
    intro id hid
    have hmem := hids.mem_iff.mpr (mem_distinctIds.mp hid)
    simpa using hmem
  unfold Report.passed
  rw [hmismatches, hduplicates, hr.mode_eq, hmode, hsurplus, hmissed]
  rfl

end Comparator

end KnnOracle
