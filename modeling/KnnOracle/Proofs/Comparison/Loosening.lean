/-
Limits made looser.

A comparator is looser than another if its tolerance is larger and it asks
for a smaller recall, or for a recall where the other asks for the very
same ids. `compare_loosened` says that no answer loses by that.

# The step between the modes

A report says the same of two answers under all limits, except for what
the limits decide themselves (`compare_heldTo`). So what has to be shown is
that acceptable answers stay acceptable. Within one mode that is the
transitivity of the order of numbers. Between the modes it is that an answer
with the very same ids has the recall one (`recallOf_eq_one`): each of the
oracle's ids is named, so that as many are named as there are, and a count
divided by itself is one. Ids are 64-bit numbers, so that there are not too
many of them to be counted with numbers.
-/
import Mathlib
import KnnOracle.Proofs.Comparison.Verdict
import KnnOracle.Proofs.Decimal.Order
import KnnOracle.Proofs.Decimal.Whole

namespace KnnOracle

-- ============================================================ the recall

/-- There are no more different ids than 64-bit numbers, so that a count of
them is finite as a float. -/
theorem length_distinctIds_le (list : List Neighbor) :
    (distinctIds list).length ≤ 2 ^ 64 := by
  have hinjective : Function.Injective fun id : RecordId =>
      id.value.toFin := by
    rintro ⟨a⟩ ⟨b⟩ h
    exact congrArg RecordId.mk (UInt64.toFin_inj.mp h)
  have hnodup := (nodup_distinctIds list).map hinjective
  have hcard := hnodup.length_le_card
  rwa [List.length_map, Fintype.card_fin] at hcard

/-- Two answers with the same ids have full recall, which no limit can ask more
than. This is why exact answers pass the approximate mode as well. -/
private theorem SameIds.recallOf_eq_one {oracle service : List Neighbor}
    (h : SameIds oracle service) :
    recallOf oracle service = 1.0 := by
  unfold recallOf
  split
  · rfl
  · next hne =>
      have hall :
          ((distinctIds oracle).filter fun id => id ∈ service.map Neighbor.id)
          = distinctIds oracle := by
        rw [List.filter_eq_self]
        intro id hid
        exact decide_eq_true ((h id).mp (mem_distinctIds.mp hid))
      have hpos : 0 < (distinctIds oracle).length := by
        obtain ⟨n, rest, rfl⟩ := List.exists_cons_of_ne_nil hne
        exact List.length_pos_of_mem (mem_distinctIds.mpr List.mem_cons_self)
      have hlog : (distinctIds oracle).length.log2 < 1023 := by
        have hle := length_distinctIds_le oracle
        have hlt : (distinctIds oracle).length < 2 ^ 65 := by omega
        have := (Nat.log2_lt hpos.ne').mpr hlt
        omega
      rw [hall]
      exact Decimal.ofNat_div_self hpos hlog

-- ============================================================ the limits

namespace Comparator

/-- The second comparator asks for nothing that the first does not ask
for. -/
structure LoosenedTo (c c' : Comparator) : Prop where
  tolerance_le : c.tolerance ≤ c'.tolerance
  demand : (c'.mode = c.mode ∧ c'.minRecall ≤ c.minRecall) ∨
    (c.mode = .exact ∧ c'.mode = .approximate)

variable {c c' : Comparator} {oracle service : List Neighbor} {r : Report}

/-- An acceptable answer stays acceptable. This is the whole of the claim about
verdicts; what remains is that reports do not differ otherwise. -/
theorem Accepts.loosened (h : c.Accepts oracle service)
    (hloose : c.LoosenedTo c') (hrecall : c'.HasRecall) :
    c'.Accepts oracle service := by
  obtain ⟨hnodup, hclose, hmode⟩ := h
  refine ⟨hnodup, fun id a b ha hb =>
    Decimal.float_le_trans (hclose id a b ha hb) hloose.tolerance_le, ?_⟩
  obtain ⟨hsame, hless⟩ | ⟨hexact, happroximate⟩ := hloose.demand
  · rw [hsame]
    cases hc : c.mode with
    | exact =>
        rw [hc] at hmode
        exact hmode
    | approximate =>
        rw [hc] at hmode
        exact Decimal.float_le_trans hless hmode
  · rw [hexact] at hmode
    rw [happroximate]
    show c'.minRecall ≤ recallOf oracle service
    rw [SameIds.recallOf_eq_one hmode]
    exact hrecall.2

end Comparator

-- ============================================================ the report

/-- The report under other limits. -/
def Report.heldTo (r : Report) (c : Comparator) : Report :=
  { r with
    mode := c.mode
    tolerance := c.tolerance
    minRecall := c.minRecall
    scoreMismatches := r.matched.filter fun m => !(m.delta ≤ c.tolerance) }

namespace Comparator

variable {c c' : Comparator} {oracle service : List Neighbor} {r : Report}

/-- What a report says of the answers does not depend on the limits. Only the
mismatches and the verdict do, and these two follow from the lists. -/
theorem compare_heldTo (h : c.compare oracle service = .ok r)
    (htolerance : c'.HasTolerance) (hrecall : c'.HasRecall) :
    c'.compare oracle service = .ok (r.heldTo c') := by
  unfold compare at h ⊢
  rw [thresholdFault?_eq, if_pos htolerance, if_pos hrecall]
  split at h
  · cases h
  · cases h
    rfl

end Comparator

/-- The two reports say the same of the answers, and the second holds no more
against them. -/
structure Report.Relaxes (r r' : Report) : Prop where
  k_eq : r'.k = r.k
  recallRate_eq : r'.recallRate = r.recallRate
  matched_eq : r'.matched = r.matched
  falsePositives_eq : r'.falsePositives = r.falsePositives
  falseNegatives_eq : r'.falseNegatives = r.falseNegatives
  duplicates_eq : r'.duplicates = r.duplicates
  serviceRanked_eq : r'.serviceRanked = r.serviceRanked
  scoreMismatches_sublist : r'.scoreMismatches.Sublist r.scoreMismatches
  passed : r.passed = true → r'.passed = true

namespace Comparator

variable {c c' : Comparator}

/-- A larger tolerance finds no further mismatches, and the ones that are left
keep their order. -/
theorem filter_exceeding_sublist (h : c.tolerance ≤ c'.tolerance)
    (matched : List ScoreDelta) :
    (matched.filter fun m => !(m.delta ≤ c'.tolerance)).Sublist
      (matched.filter fun m => ¬ m.delta ≤ c.tolerance) := by
  refine List.monotone_filter_right matched fun m hm => ?_
  rw [Bool.not_eq_true', decide_eq_false_iff_not] at hm
  exact decide_eq_true fun hle => hm (Decimal.float_le_trans hle h)

-- ==================================================== the main statement

/-- Looser limits never turn a pass into a failure. -/
theorem compare_loosened (htolerance : c.HasTolerance) (hrecall : c.HasRecall)
    (htolerance' : c'.HasTolerance) (hrecall' : c'.HasRecall)
    (hloose : c.LoosenedTo c') (oracle service : List Neighbor) :
    ∃ r r', c.compare oracle service = .ok r ∧
      c'.compare oracle service = .ok r' ∧ r.Relaxes r' := by
  obtain ⟨r, hcompare, hr⟩ := exists_judges htolerance hrecall oracle service
  obtain ⟨r', hcompare', hr'⟩ :=
    exists_judges htolerance' hrecall' oracle service
  have hheld := compare_heldTo hcompare htolerance' hrecall'
  obtain rfl : r' = r.heldTo c' := Except.ok.inj (hcompare'.symm.trans hheld)
  refine ⟨r, r.heldTo c', hcompare, hcompare', ?_⟩
  constructor
  case scoreMismatches_sublist =>
    rw [hr.scoreMismatches_eq]
    exact filter_exceeding_sublist hloose.tolerance_le r.matched
  case passed =>
    intro hpassed
    exact hr'.passed_iff.mpr
      ((hr.passed_iff.mp hpassed).loosened hloose hrecall')
  all_goals rfl

-- ------------------------------------------------------------ an instance

/-- What an approximate index is held to if it has to find everything. -/
def everything : Comparator :=
  { tolerance := 0.5, mode := .approximate, minRecall := 1.0 }

/-- A judgement with drift passes under a tolerance that admits it, and still
passes when everything is admitted. -/
theorem compare_loosened_to_everything :
    withinQuarter.HasTolerance ∧ withinQuarter.HasRecall ∧
    everything.HasTolerance ∧ everything.HasRecall ∧
    withinQuarter.LoosenedTo everything ∧
    ∃ r r', withinQuarter.compare repeating drifted = .ok r ∧ r.passed = true ∧
      everything.compare repeating drifted = .ok r' ∧ r'.passed = true := by
  have htolerance : withinQuarter.HasTolerance := by decide
  have hrecall : withinQuarter.HasRecall := by decide
  have htolerance' : everything.HasTolerance := by decide
  have hrecall' : everything.HasRecall := by decide
  have hloose : withinQuarter.LoosenedTo everything :=
    ⟨by decide, Or.inr ⟨rfl, rfl⟩⟩
  refine ⟨htolerance, hrecall, htolerance', hrecall', hloose, ?_⟩
  obtain ⟨r, r', hr, hr', hrelaxes⟩ :=
    compare_loosened htolerance hrecall htolerance' hrecall' hloose
      repeating drifted
  have hpassed : r.passed = true := by
    obtain ⟨s, hs, hjudges⟩ :=
      exists_judges htolerance hrecall repeating drifted
    obtain rfl : s = r := Except.ok.inj (hs.symm.trans hr)
    refine hjudges.passed_iff.mpr ⟨by decide, close_drifted, fun id => ?_⟩
    simp [repeating, drifted, or_comm]
  exact ⟨r, r', hr, hpassed, hr', hrelaxes.passed hpassed⟩

end Comparator

end KnnOracle
