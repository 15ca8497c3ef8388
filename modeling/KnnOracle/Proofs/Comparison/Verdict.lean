/-
What a verdict means.

Whether an answer passes is read off a report, and the report off two
tables. `compare_decides` says it in terms of the two answers alone: which
ids they name, how often the service names them, and which scores stand at
their first occurrences.

Two things follow. The order of the service's answer does not matter,
because an answer that names an id twice fails in every order, and in any
other each id has one score. An answer held against itself as exact passes
if its ids differ and its scores are finite: `x - x` is zero for a finite
number and no number otherwise.
-/
import KnnOracle.Proofs.Comparison.Agreement

namespace KnnOracle

-- ==================================================== numbers from themselves

/-- What is not finite is no number away from itself. Hence a list with such a
score is not acceptable even to itself. -/
theorem isNaN_sub_self_abs {x : Float} (h : x.isFinite = false) :
    (x - x).abs.isNaN = true := by
  have hdiff : x - x = .ofModel (Float.Model.pack .notANumber) := by
    rw [isFinite_eq] at h
    rw [sub_eq]
    cases hx : x.toModel.unpack with
    | notANumber => rfl
    | infinity sign => cases sign <;> rfl
    | zero sign =>
        rw [hx] at h
        cases h
    | finite sign mantissa exponent hpos =>
        rw [hx] at h
        cases h
  rw [hdiff]
  decide

-- ============================================================== scores of ids

/-- Where no id repeats, the first score of an id is its only one. -/
theorem firstScore?_eq_some_iff {list : List Neighbor}
    (hnodup : (list.map Neighbor.id).Nodup) {id : RecordId} {s : Score} :
    firstScore? list id = some s ↔ ⟨id, s⟩ ∈ list := by
  constructor
  · intro h
    obtain ⟨n, hn, rfl, rfl⟩ := exists_of_firstScore? h
    exact hn
  · intro hmem
    have hsome : id ∈ list.map Neighbor.id := List.mem_map.mpr ⟨_, hmem, rfl⟩
    obtain ⟨t, ht⟩ :=
      Option.isSome_iff_exists.mp (isSome_firstScore?.mpr hsome)
    obtain ⟨n, hn, hid, rfl⟩ := exists_of_firstScore? ht
    obtain rfl : n = ⟨id, s⟩ := List.inj_on_of_nodup_map hnodup hn hmem hid
    exact ht

/-- Where no id is repeated, the order of a list does not matter for the scores
of its ids. -/
private theorem firstScore?_of_perm {list list' : List Neighbor}
    (hperm : list.Perm list') (hnodup : (list.map Neighbor.id).Nodup)
    (id : RecordId) :
    firstScore? list id = firstScore? list' id := by
  have hnodup' := (hperm.map Neighbor.id).nodup_iff.mp hnodup
  apply Option.ext
  intro s
  rw [firstScore?_eq_some_iff hnodup, firstScore?_eq_some_iff hnodup',
    hperm.mem_iff]

-- ========================================================= what is asked for

/-- Where both answers have a score for an id, the scores that come first
deviate by no more than the tolerance. -/
def Close (tolerance : Float) (oracle service : List Neighbor) : Prop :=
  ∀ id a b, firstScore? oracle id = some a → firstScore? service id = some b →
    (a.toFloat - b.toFloat).abs ≤ tolerance

/-- The two answers name the same ids. -/
def SameIds (oracle service : List Neighbor) : Prop :=
  ∀ id, id ∈ oracle.map Neighbor.id ↔ id ∈ service.map Neighbor.id

/-- How much of the oracle's answer the service named. -/
def recallOf (oracle service : List Neighbor) : Float :=
  if oracle = [] then 1.0
  else
    Float.ofNat ((distinctIds oracle).filter fun id =>
      id ∈ service.map Neighbor.id).length
      / Float.ofNat (distinctIds oracle).length

namespace Comparator

/-- The answer of the service is acceptable. -/
def Accepts (c : Comparator) (oracle service : List Neighbor) : Prop :=
  (service.map Neighbor.id).Nodup ∧ Close c.tolerance oracle service ∧
  match c.mode with
  | .exact => SameIds oracle service
  | .approximate => c.minRecall ≤ recallOf oracle service

variable {c : Comparator} {oracle service : List Neighbor} {r : Report}

-- ============================================================== the lists

namespace Judges

/-- What a verdict asks of a report is said of the two lists themselves, part
by part. Nothing is repeated if no id of the service comes twice. -/
private theorem duplicates_eq_nil_iff (h : c.Judges oracle service r) :
    r.duplicates = [] ↔ (service.map Neighbor.id).Nodup := by
  rw [List.nodup_iff_count_le_one, List.eq_nil_iff_forall_not_mem]
  refine forall_congr' fun id => ?_
  rw [h.mem_duplicates]
  omega

private theorem falseNegatives_eq_nil_iff (h : c.Judges oracle service r) :
    r.falseNegatives = [] ↔ ∀ id ∈ oracle.map Neighbor.id,
      id ∈ service.map Neighbor.id := by
  rw [h.falseNegatives_eq, List.filter_eq_nil_iff]
  simp only [mem_distinctIds, decide_eq_true_eq, not_not]

private theorem falsePositives_eq_nil_iff (h : c.Judges oracle service r) :
    r.falsePositives = [] ↔ ∀ id ∈ service.map Neighbor.id,
      id ∈ oracle.map Neighbor.id := by
  rw [h.falsePositives_eq, List.filter_eq_nil_iff]
  simp only [mem_distinctIds, decide_eq_true_eq, not_not]

/-- Nothing missing and nothing too much is the same as having the same ids.
The program tests the former, the specification says the latter. -/
private theorem sameIds_iff (h : c.Judges oracle service r) :
    r.falsePositives = [] ∧ r.falseNegatives = [] ↔
      SameIds oracle service := by
  rw [h.falsePositives_eq_nil_iff, h.falseNegatives_eq_nil_iff]
  exact ⟨fun ⟨hsurplus, hmissed⟩ id => ⟨hmissed id, hsurplus id⟩,
    fun hsame => ⟨fun id => (hsame id).mpr, fun id => (hsame id).mp⟩⟩

/-- An id with a score on both sides is matched, with the difference of the
two. So no score can be off without being looked at. -/
theorem exists_matched (h : c.Judges oracle service r) {id : RecordId}
    {a b : Score} (ha : firstScore? oracle id = some a)
    (hb : firstScore? service id = some b) :
    ∃ m ∈ r.matched, m.delta = (a.toFloat - b.toFloat).abs := by
  have hid : id ∈ r.matched.map ScoreDelta.id := by
    rw [h.matched_ids, List.mem_filter, mem_distinctIds, decide_eq_true_eq,
      ← isSome_firstScore?, ← isSome_firstScore?, ha, hb]
    exact ⟨rfl, rfl⟩
  obtain ⟨m, hm, rfl⟩ := List.mem_map.mp hid
  obtain ⟨horacle, hservice, hdelta⟩ := h.matched_scores m hm
  rw [ha, Option.some.injEq] at horacle
  rw [hb, Option.some.injEq] at hservice
  exact ⟨m, hm, by rw [hdelta, horacle, hservice]⟩

/-- No score is off if all that both lists have are within the tolerance. -/
private theorem scoreMismatches_eq_nil_iff (h : c.Judges oracle service r) :
    r.scoreMismatches = [] ↔ Close c.tolerance oracle service := by
  rw [h.scoreMismatches_eq, List.filter_eq_nil_iff]
  simp only [decide_eq_true_eq, not_not]
  constructor
  · intro hall id a b ha hb
    obtain ⟨m, hm, hdelta⟩ := h.exists_matched ha hb
    rw [← hdelta]
    exact hall m hm
  · intro hclose m hm
    obtain ⟨horacle, hservice, hdelta⟩ := h.matched_scores m hm
    rw [hdelta]
    exact hclose m.id _ _ horacle hservice

private theorem recallRate_eq_recallOf (h : c.Judges oracle service r) :
    r.recallRate = recallOf oracle service := by
  have hmatched : r.matched.length
      = ((distinctIds oracle).filter fun id =>
        id ∈ service.map Neighbor.id).length := by
    rw [← h.matched_ids, List.length_map]
  have hempty : r.k = 0 ↔ oracle = [] := by
    rw [h.k_eq, List.length_eq_zero_iff, List.eq_nil_iff_forall_not_mem]
    simp only [mem_distinctIds]
    rw [← List.eq_nil_iff_forall_not_mem, List.map_eq_nil_iff]
  rw [h.recallRate_eq, recallOf, hmatched, h.k_eq]
  rw [h.k_eq] at hempty
  simp only [hempty]

/-- A report passes exactly the answers that are acceptable. The verdict of the
program is compared with the specification here and nowhere else. -/
theorem passed_iff (h : c.Judges oracle service r) :
    r.passed = true ↔ c.Accepts oracle service := by
  unfold Report.passed Accepts
  rw [← h.duplicates_eq_nil_iff, ← h.scoreMismatches_eq_nil_iff,
    ← h.sameIds_iff, ← h.recallRate_eq_recallOf, h.mode_eq, h.minRecall_eq]
  cases r.scoreMismatches with
  | cons m rest => simp
  | nil =>
      cases r.duplicates with
      | cons id rest => simp
      | nil => cases c.mode <;> simp

end Judges

-- ========================================================== reordering

/-- The order of the service's answer does not matter, as ids and first scores
do not change with it. -/
theorem Accepts.perm {service' : List Neighbor} (h : c.Accepts oracle service)
    (hperm : service.Perm service') : c.Accepts oracle service' := by
  obtain ⟨hnodup, hclose, hmode⟩ := h
  have hids := hperm.map Neighbor.id
  refine ⟨hids.nodup_iff.mp hnodup,
    fun id a b ha hb => hclose id a b ha ?_, ?_⟩
  · rw [firstScore?_of_perm hperm hnodup]
    exact hb
  · revert hmode
    unfold SameIds recallOf
    simp only [hids.mem_iff]
    exact id

private theorem accepts_perm_iff {service' : List Neighbor}
    (hperm : service.Perm service') :
    c.Accepts oracle service ↔ c.Accepts oracle service' :=
  ⟨fun h => h.perm hperm, fun h => h.perm hperm.symm⟩

-- ========================================================== against itself

/-- Held against itself as exact, an answer is acceptable if its ids differ
and its scores are finite. -/
theorem accepts_self_iff (htolerance : c.HasTolerance)
    (hmode : c.mode = .exact) {list : List Neighbor} :
    c.Accepts list list ↔
      (list.map Neighbor.id).Nodup ∧
        ∀ n ∈ list, n.score.toFloat.isFinite = true := by
  unfold Accepts
  rw [hmode]
  constructor
  · rintro ⟨hnodup, hclose, -⟩
    refine ⟨hnodup, fun n hn => ?_⟩
    have hfirst : firstScore? list n.id = some n.score :=
      (firstScore?_eq_some_iff hnodup).mpr hn
    cases hfinite : n.score.toFloat.isFinite with
    | true => rfl
    | false =>
        exact absurd (hclose n.id _ _ hfirst hfirst)
          (not_le_of_isNaN (isNaN_sub_self_abs hfinite))
  · rintro ⟨hnodup, hfinite⟩
    refine ⟨hnodup, fun id a b ha hb => ?_, fun id => Iff.rfl⟩
    rw [ha, Option.some.injEq] at hb
    have hmem := (firstScore?_eq_some_iff hnodup).mp ha
    rw [← hb, sub_self_abs (hfinite _ hmem)]
    exact zero_le_of_not_lt htolerance.1 htolerance.2

-- ==================================================== the main statement

/-- What it means that an answer passes. -/
structure Verdict (c : Comparator) (oracle service : List Neighbor)
    (r : Report) : Prop where
  recall_eq : r.recallRate = recallOf oracle service
  exact : c.mode = .exact →
    (r.passed = true ↔ (service.map Neighbor.id).Nodup ∧
      SameIds oracle service ∧
      Close c.tolerance oracle service)
  approximate : c.mode = .approximate →
    (r.passed = true ↔ (service.map Neighbor.id).Nodup ∧
      Close c.tolerance oracle service ∧
      c.minRecall ≤ r.recallRate)
  /-- In another order the answer has the same verdict. -/
  reordered : ∀ service', service'.Perm service →
    ∃ r', c.compare oracle service' = .ok r' ∧ r'.passed = r.passed

/-- Under limits that are limits there is a verdict on every answer, the one
that the ids and the scores on both sides call for. The order of the answer
does not matter to it. -/
theorem compare_decides (htolerance : c.HasTolerance) (hrecall : c.HasRecall) :
    (∀ oracle service, ∃ r, c.compare oracle service = .ok r ∧
      c.Verdict oracle service r) ∧
    (c.mode = .exact → ∀ list, ∃ r, c.compare list list = .ok r ∧
      (r.passed = true ↔
        (list.map Neighbor.id).Nodup ∧
          ∀ n ∈ list, n.score.toFloat.isFinite = true)) := by
  constructor
  · intro oracle service
    obtain ⟨r, hcompare, hr⟩ := exists_judges htolerance hrecall oracle service
    refine ⟨r, hcompare, ?_⟩
    constructor
    case recall_eq => exact hr.recallRate_eq_recallOf
    case exact =>
      intro hmode
      rw [hr.passed_iff, Accepts, hmode]
      exact and_congr_right' And.comm
    case approximate =>
      intro hmode
      rw [hr.passed_iff, Accepts, hmode, hr.recallRate_eq_recallOf]
    case reordered =>
      intro service' hperm
      obtain ⟨r', hcompare', hr'⟩ :=
        exists_judges htolerance hrecall oracle service'
      refine ⟨r', hcompare', ?_⟩
      rw [Bool.eq_iff_iff, hr'.passed_iff, hr.passed_iff]
      exact accepts_perm_iff hperm
  · intro hmode list
    obtain ⟨r, hcompare, hr⟩ := exists_judges htolerance hrecall list list
    exact ⟨r, hcompare, hr.passed_iff.trans
      (accepts_self_iff htolerance hmode)⟩

-- ------------------------------------------------------------ an instance

/-- What an exact index is held to with a tolerance of a quarter. -/
def withinQuarter : Comparator := { tolerance := 0.25, mode := .exact }

/-- An answer that names an id again, with another score. -/
def repeating : List Neighbor :=
  [⟨⟨1⟩, ⟨0x3FF0000000000000⟩⟩, ⟨⟨2⟩, ⟨0x3FE0000000000000⟩⟩, ⟨⟨1⟩, ⟨0⟩⟩]

/-- The same ids in another order, one of them an eighth away. -/
def drifted : List Neighbor :=
  [⟨⟨2⟩, ⟨0x3FE0000000000000⟩⟩, ⟨⟨1⟩, ⟨0x3FEC000000000000⟩⟩]

/-- A drift of less than a quarter is within the tolerance of a quarter, which
the floats here show by computation. -/
theorem close_drifted : Close withinQuarter.tolerance repeating drifted := by
  intro id a b ha hb
  have hnodup : (drifted.map Neighbor.id).Nodup := by decide
  have hmem := (firstScore?_eq_some_iff hnodup).mp hb
  simp only [drifted, List.mem_cons, Neighbor.mk.injEq, List.not_mem_nil,
    or_false] at hmem
  rcases hmem with ⟨rfl, rfl⟩ | ⟨rfl, rfl⟩
  · obtain rfl : (⟨0x3FE0000000000000⟩ : Score) = a := Option.some.inj ha
    decide
  · obtain rfl : (⟨0x3FF0000000000000⟩ : Score) = a := Option.some.inj ha
    decide

/-- A drift within the tolerance passes, and an infinite score does not
even agree with itself. -/
theorem compare_decides_of_drift :
    withinQuarter.HasTolerance ∧ withinQuarter.HasRecall ∧
    (∃ r, withinQuarter.compare repeating drifted = .ok r ∧ r.passed = true) ∧
    ∃ r, withinQuarter.compare [⟨⟨1⟩, ⟨0x7FF0000000000000⟩⟩]
      [⟨⟨1⟩, ⟨0x7FF0000000000000⟩⟩] = .ok r ∧
      r.passed = false := by
  have htolerance : withinQuarter.HasTolerance := by decide +kernel
  have hrecall : withinQuarter.HasRecall := by decide +kernel
  obtain ⟨hverdict, hself⟩ := compare_decides htolerance hrecall
  refine ⟨htolerance, hrecall, ?_, ?_⟩
  · obtain ⟨r, hcompare, hr⟩ := hverdict repeating drifted
    refine ⟨r, hcompare, (hr.exact rfl).mpr ⟨by decide, ?_, close_drifted⟩⟩
    intro id
    simp [repeating, drifted, or_comm]
  · obtain ⟨r, hcompare, hr⟩ := hself rfl [⟨⟨1⟩, ⟨0x7FF0000000000000⟩⟩]
    refine ⟨r, hcompare, ?_⟩
    rw [← Bool.not_eq_true, hr]
    rintro ⟨-, hfinite⟩
    have hinfinite := hfinite _ (List.mem_singleton_self _)
    revert hinfinite
    decide +kernel

end Comparator

end KnnOracle
