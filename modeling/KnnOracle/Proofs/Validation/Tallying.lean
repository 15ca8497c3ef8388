/-
One story of the outcomes.

Whether queries passed is told in five places: the counts and extremes of the
summary, the entries of the report, the table of failures, the counters, and
the end of the run. All of them are read off the outcomes, each in its own
way, and `outcomes_tell` says that they agree.

A deviation may be a NaN, and the largest of all is still the largest of the
largest ones (`reduce?_flatten`), because a NaN loses against any number. A
recall is never one (`Comparator.Judges.isNaN_recallRate`), so that there is
a smallest. The counters are summed up one outcome at a time
(`Telemetry.foldl_add_eventsOf`), and a conversation that validates queries
counts what belongs to its outcomes and nothing else
(`Validator.eventsIn_of_endsWith`).
-/
import Mathlib
import KnnOracle.Proofs.Comparison.Extremes
import KnnOracle.Proofs.Comparison.Loosening
import KnnOracle.Proofs.Validation.Independence
import KnnOracle.Session.Command

namespace KnnOracle

-- ============================================================ the recalls

/-- A recall rate is a number: where nothing was expected it is one, and
nothing is divided by zero. -/
private theorem Comparator.Judges.isNaN_recallRate {c : Comparator}
    {oracle service : List Neighbor} {r : Report}
    (h : c.Judges oracle service r) : r.recallRate.isNaN = false := by
  rw [h.recallRate_eq]
  by_cases hk : r.k = 0
  · rw [if_pos hk]
    decide
  · rw [if_neg hk]
    have hcount := h.oracle_count
    have hlog : r.k.log2 < 1023 := by
      have hle := length_distinctIds_le oracle
      rw [← h.k_eq] at hle
      have hlt : r.k < 2 ^ 65 := by omega
      have := (Nat.log2_lt hk).mpr hlt
      omega
    exact isNaN_ofNat_div (Nat.pos_of_ne_zero hk) (by omega) hlog

/-- The judgement, if there is one, is that of a comparison. -/
def Outcome.IsCompared (o : Outcome) : Prop :=
  ∀ r, o.result = .ok r → ∃ (c : Comparator) (oracle service : List Neighbor),
    c.compare oracle service = .ok r

/-- The recall rate of a report is a number, so that rates can be compared and
averaged. -/
private theorem Comparator.isNaN_recallRate_of_compare {c : Comparator}
    {oracle service : List Neighbor} {r : Report}
    (h : c.compare oracle service = .ok r) : r.recallRate.isNaN = false := by
  by_cases htolerance : c.HasTolerance
  · by_cases hrecall : c.HasRecall
    · obtain ⟨r', hr', hjudges⟩ :=
        exists_judges htolerance hrecall oracle service
      cases h.symm.trans hr'
      exact hjudges.isNaN_recallRate
    · rw [compare_of_not_hasRecall htolerance hrecall] at h
      cases h
  · rw [compare_of_not_hasTolerance htolerance] at h
    cases h

-- ============================================================ the summary

/-- The judgements of outcomes, in order. -/
def reportsOf (outcomes : List Outcome) : List Report :=
  outcomes.filterMap Outcome.report?

/-- What a summary says of outcomes. -/
structure Summary.Sums (outcomes : List Outcome) (s : Summary) : Prop where
  queries_eq : s.queries = outcomes.length
  passed_add_failed : s.passed + s.failed = s.queries
  judged_add_errored : (reportsOf outcomes).length + s.errored = s.queries
  errored_eq : s.errored = (outcomes.filter fun o => o.error?.isSome).length
  errored_le : s.errored ≤ s.failed
  allPassed_iff : s.allPassed = true ↔ ∀ o ∈ outcomes, ∃ r, o.result = .ok r ∧
    r.passed = true
  /-- All deviations are compared as if they were one list. -/
  maxScoreDelta_eq : s.maxScoreDelta
    = (reduce? larger
        ((reportsOf outcomes).flatMap fun r =>
          r.matched.map ScoreDelta.delta)).getD 0.0
  minRecall_of_nil : reportsOf outcomes = [] → s.minRecall = 0.0
  minRecall_mem : reportsOf outcomes ≠ [] →
    ∃ r ∈ reportsOf outcomes, s.minRecall = r.recallRate
  minRecall_le : ∀ r ∈ reportsOf outcomes, s.minRecall ≤ r.recallRate

section summary

variable {outcomes : List Outcome}

private theorem Outcome.passed_iff_exists {o : Outcome} :
    o.passed = true ↔ ∃ r, o.result = .ok r ∧ r.passed = true := by
  unfold passed report?
  cases o.result with
  | error e => simp
  | ok r => simp

private theorem Outcome.isSome_error? (o : Outcome) :
    o.error?.isSome = !o.report?.isSome := by
  unfold error? report?
  cases o.result with
  | error e => rfl
  | ok r => rfl

theorem Outcome.isSome_report?_of_passed {o : Outcome} (h : o.passed = true) :
    o.report?.isSome = true := by
  unfold passed at h
  cases hr : o.report? with
  | none =>
      rw [hr] at h
      cases h
  | some r => rfl

private theorem length_reportsOf (outcomes : List Outcome) :
    (reportsOf outcomes).length
      = (outcomes.filter fun o => o.report?.isSome).length := by
  rw [reportsOf, List.length_filterMap_eq_countP, List.countP_eq_length_filter]

/-- There are outcomes with a judgement, and outcomes without. Counts of the
two add up to the number of queries. -/
theorem length_reportsOf_add (outcomes : List Outcome) :
    (reportsOf outcomes).length
      + (outcomes.filter fun o => o.error?.isSome).length
      = outcomes.length := by
  rw [length_reportsOf, funext Outcome.isSome_error?]
  exact (List.length_eq_length_filter_add fun o : Outcome =>
    o.report?.isSome).symm

/-- No more queries pass than were compared, since a pass needs a report. The
failed ones are counted by this difference. -/
private theorem length_passed_le (outcomes : List Outcome) :
    (outcomes.filter Outcome.passed).length ≤ (reportsOf outcomes).length := by
  rw [length_reportsOf]
  exact (List.monotone_filter_right outcomes fun o =>
    Outcome.isSome_report?_of_passed).length_le

/-- The largest deviations of the judgements are gathered as if all deviations
were one list. -/
theorem reduce?_maxDelta? (reports : List Report) :
    reduce? larger (reports.filterMap Report.maxDelta?)
      = reduce? larger (reports.flatMap fun r =>
        r.matched.map ScoreDelta.delta) := by
  rw [List.flatMap_def, reduce?_flatten, List.filterMap_map]
  rfl

/-- The smallest recall is the recall of a judgement, and at most each. -/
theorem reduce?_recallRate {reports : List Report} {least : Float}
    (hnumbers : ∀ r ∈ reports, r.recallRate.isNaN = false)
    (h : reduce? smaller (reports.map Report.recallRate) = some least) :
    (∃ r ∈ reports, least = r.recallRate) ∧
      ∀ r ∈ reports, least ≤ r.recallRate := by
  obtain ⟨hmem, hle⟩ := reduce?_smaller (List.forall_mem_map.mpr hnumbers) h
  obtain ⟨r, hr, heq⟩ := List.mem_map.mp hmem
  exact ⟨⟨r, hr, heq.symm⟩, List.forall_mem_map.mp hle⟩

/-- Every report is that of an outcome, so what holds of compared outcomes
holds of reports. -/
private theorem exists_of_mem_reportsOf {r : Report}
    (h : r ∈ reportsOf outcomes) :
    ∃ o ∈ outcomes, o.result = .ok r := by
  obtain ⟨o, ho, hreport⟩ := List.mem_filterMap.mp h
  refine ⟨o, ho, ?_⟩
  unfold Outcome.report? at hreport
  split at hreport
  · next r' hr' =>
      cases hreport
      exact hr'
  · cases hreport

/-- The summary sums up the outcomes, count by count and mean by mean. -/
private theorem sums_ofOutcomes (hcompared : ∀ o ∈ outcomes, o.IsCompared) :
    (Summary.ofOutcomes outcomes).Sums outcomes := by
  have hjudged := length_reportsOf_add outcomes
  have hpassed := length_passed_le outcomes
  have herrored : (Summary.ofOutcomes outcomes).errored
      = outcomes.length - (reportsOf outcomes).length := rfl
  have hfailed : (Summary.ofOutcomes outcomes).failed
      = outcomes.length - (outcomes.filter Outcome.passed).length := rfl
  have hrecalls : (Summary.ofOutcomes outcomes).minRecall
      = (reduce? smaller ((reportsOf outcomes).map Report.recallRate)).getD
        0.0 := rfl
  have hnumbers : ∀ r ∈ reportsOf outcomes, r.recallRate.isNaN = false := by
    intro r hr
    obtain ⟨o, ho, hresult⟩ := exists_of_mem_reportsOf hr
    obtain ⟨c, oracle, service, hcompare⟩ := hcompared o ho r hresult
    exact Comparator.isNaN_recallRate_of_compare hcompare
  constructor
  case queries_eq => rfl
  case passed_add_failed =>
    show (outcomes.filter Outcome.passed).length + _ = outcomes.length
    omega
  case judged_add_errored =>
    show _ = outcomes.length
    omega
  case errored_eq => omega
  case errored_le => omega
  case allPassed_iff =>
    have hle := List.length_filter_le Outcome.passed outcomes
    have hall : (outcomes.filter Outcome.passed).length = outcomes.length
        ↔ ∀ o ∈ outcomes, o.passed = true := List.length_filter_eq_length_iff
    simp only [← Outcome.passed_iff_exists]
    rw [Summary.allPassed, beq_iff_eq, ← hall]
    omega
  case maxScoreDelta_eq =>
    exact congrArg (·.getD 0.0) (reduce?_maxDelta? (reportsOf outcomes))
  case minRecall_of_nil =>
    intro hnil
    rw [hrecalls, hnil]
    rfl
  case minRecall_mem =>
    intro hne
    cases hleast : reduce? smaller
      ((reportsOf outcomes).map Report.recallRate) with
    | none =>
        exact absurd (List.map_eq_nil_iff.mp (reduce?_eq_none_iff.mp hleast))
          hne
    | some least =>
        rw [hrecalls, hleast]
        exact (reduce?_recallRate hnumbers hleast).1
  case minRecall_le =>
    intro r hr
    cases hleast : reduce? smaller
      ((reportsOf outcomes).map Report.recallRate) with
    | none =>
        rw [List.map_eq_nil_iff.mp (reduce?_eq_none_iff.mp hleast)] at hr
        cases hr
    | some least =>
        rw [hrecalls, hleast]
        exact (reduce?_recallRate hnumbers hleast).2 r hr

end summary

-- ============================================================= the report

namespace Json.Value

/-- The member of an object with a name. -/
def member? (name : String) : Value → Option Value
  | .object members => members.lookup name
  | _ => none

/-- Whether the member of an object with a name is true. -/
def confirms (name : String) (v : Value) : Bool :=
  match v.member? name with
  | some (.bool b) => b
  | _ => false

end Json.Value

/-- What an entry of a report says of an outcome: there is either a judgement
or a cause. -/
structure Outcome.Enters (o : Outcome) (entry : Json.Value) : Prop where
  query_eq : entry.member? "query" = some o.query.toJson
  passed_eq : entry.member? "passed" = some (.bool o.passed)
  judged : ∀ r, o.result = .ok r →
    entry.member? "report" = some r.toJson ∧ entry.member? "error" = none
  failed : ∀ e, o.result = .error e →
    entry.member? "report" = none ∧
      entry.member? "error" = some (.text e.message)

private theorem Outcome.enters (o : Outcome) :
    o.Enters (RunReport.entryToJson o) := by
  obtain ⟨query, elapsed, result⟩ := o
  cases result with
  | error e =>
      refine ⟨rfl, rfl, fun r hr => (by cases hr), fun e' he => ?_⟩
      cases he
      exact ⟨rfl, rfl⟩
  | ok r =>
      refine ⟨rfl, rfl, fun r' hr => ?_, fun e he => (by cases he)⟩
      cases hr
      exact ⟨rfl, rfl⟩

/-- What a report says of outcomes: the summary, and one entry each, in
order. -/
structure RunReport.Lists (outcomes : List Outcome) (s : Summary)
    (document : Json.Value) : Prop where
  summary_eq : document.member? "summary" = some (summaryToJson s)
  entries : ∃ entries, document.member? "queries" = some (.list entries) ∧
    List.Forall₂ Outcome.Enters outcomes entries ∧
    (entries.filter (Json.Value.confirms "passed")).length = s.passed

/-- The written report lists every outcome in its order, and the summary of
them. -/
theorem RunReport.lists (r : RunReport) (moment : Nat) :
    RunReport.Lists r.outcomes (.ofOutcomes r.outcomes) (r.toJson moment) := by
  have hconfirms : Json.Value.confirms "passed" ∘ entryToJson
      = Outcome.passed := by
    funext o
    rw [Function.comp_apply, Json.Value.confirms, o.enters.passed_eq]
  refine ⟨rfl, r.outcomes.map entryToJson, rfl, ?_, ?_⟩
  · rw [List.forall₂_map_right_iff, List.forall₂_same]
    exact fun o _ => o.enters
  · rw [List.filter_map, List.length_map, hconfirms]
    rfl

-- ============================================================== the table

/-- What a table of failures says of outcomes: nothing if there are none, and
otherwise one row for each of the first ones, in order. -/
structure Failures (outcomes : List Outcome) (s : Summary) (limit : Nat)
    (grid? : Option Text.Grid) : Prop where
  eq_none_iff : grid? = none ↔ s.allPassed = true
  rows_eq : ∀ grid, grid? = some grid →
    grid.rows.length = min limit s.failed ∧
    grid.rows
      = ((outcomes.filter fun o => !o.passed).take (min limit s.failed)).map
        Outcome.row

section table

variable {outcomes : List Outcome}

private theorem length_failing (outcomes : List Outcome) :
    (outcomes.filter fun o => !o.passed).length
      = (Summary.ofOutcomes outcomes).failed := by
  have hsplit :=
    List.length_eq_length_filter_add (l := outcomes) Outcome.passed
  show _ = outcomes.length - (outcomes.filter Outcome.passed).length
  omega

/-- The table of failures shows the first ones up to the limit. There is none
if all have passed. -/
theorem failures (outcomes : List Outcome) {limit : Nat} (hlimit : 1 ≤ limit) :
    Failures outcomes (.ofOutcomes outcomes) limit
      (failureGrid? outcomes limit) := by
  have hlength := length_failing outcomes
  have htake : (outcomes.filter fun o => !o.passed).take
      (min limit (Summary.ofOutcomes outcomes).failed)
        = (outcomes.filter fun o => !o.passed).take limit := by
    rw [List.take_eq_take_iff, hlength]
    omega
  have hrows : ((outcomes.filter fun o => !o.passed).take
      (min limit (Summary.ofOutcomes outcomes).failed)).length
        = min limit (Summary.ofOutcomes outcomes).failed := by
    rw [List.length_take, hlength]
    omega
  unfold failureGrid?
  dsimp only
  rw [← htake]
  constructor
  case eq_none_iff =>
    rw [Summary.allPassed, beq_iff_eq]
    split
    · next hnone =>
        rw [List.isEmpty_iff.mp hnone, List.length_nil] at hrows
        refine iff_of_true rfl ?_
        omega
    · next hsome =>
        rw [List.isEmpty_iff, ← List.length_eq_zero_iff, hrows] at hsome
        refine iff_of_false (fun h => by cases h) ?_
        omega
  case rows_eq =>
    intro grid hgrid
    split at hgrid
    · cases hgrid
    · cases hgrid
      exact ⟨(List.length_map _).trans hrows, rfl⟩

end table

-- ============================================================ the counters

/-- An outcome counts as a query, as a failure if it did not pass, and with
its recall if it was judged. -/
theorem Telemetry.foldl_add_eventsOf (t : Telemetry) (o : Outcome) :
    (Validator.eventsOf o).foldl Telemetry.add t
      = { t with
          queriesValidated := t.queriesValidated + 1
          queryFailures := t.queryFailures + if o.passed then 0 else 1
          recalls :=
            (o.report?.map Report.recallRate).toList ++ t.recalls } := by
  unfold Validator.eventsOf
  cases o.report? with
  | none =>
      cases o.passed with
      | false => rfl
      | true => rfl
  | some r =>
      cases o.passed with
      | false => rfl
      | true => rfl

/-- What outcomes add to the counters: each is counted once, those that failed
once more, and every judgement adds its recall. -/
theorem Telemetry.foldl_add_flatMap (t : Telemetry) (outcomes : List Outcome) :
    (outcomes.flatMap Validator.eventsOf).foldl Telemetry.add t
      = { t with
          queriesValidated := t.queriesValidated + outcomes.length
          queryFailures :=
            t.queryFailures + (outcomes.filter fun o => !o.passed).length
          recalls :=
            ((reportsOf outcomes).map Report.recallRate).reverse
              ++ t.recalls } := by
  induction outcomes generalizing t with
  | nil => rfl
  | cons o rest ih =>
      rw [List.flatMap_cons, List.foldl_append, foldl_add_eventsOf, ih]
      have hrecalls : ((reportsOf (o :: rest)).map Report.recallRate).reverse
          = ((reportsOf rest).map Report.recallRate).reverse
            ++ (o.report?.map Report.recallRate).toList := by
        unfold reportsOf
        rw [List.filterMap_cons]
        cases o.report? with
        | none => exact (List.append_nil _).symm
        | some r => rw [List.map_cons, List.reverse_cons]; rfl
      rw [hrecalls, List.filter_cons, List.length_cons, List.append_assoc]
      congr 1
      · dsimp only
        omega
      · dsimp only
        cases o.passed with
        | false =>
            show _ + 1 + _ = _ + (_ + 1)
            omega
        | true => rfl

namespace Validator

variable {v : Validator} {queries : List Record} {moves : List Move}
  {outcomes : List Outcome}

private theorem eventsIn_of_talk (h : talkIn moves = moves) :
    eventsIn moves = [] := by
  induction moves with
  | nil => rfl
  | cons move rest ih =>
      cases move with
      | note event =>
          have hmem : Move.note event ∈ talkIn (.note event :: rest) := by
            rw [h]
            exact List.mem_cons_self
          cases (List.mem_filter.mp hmem).2
      | send number call => exact ih (List.cons.inj h).2
      | receive number call reply => exact ih (List.cons.inj h).2

/-- Events that are told one after another are told in their order, and nothing
else is. -/
private theorem eventsIn_of_noteAll {α : Type} {events : List Event}
    {result result' : α} {n m : Nat}
    (h : Exchange.Path ⟨.ready (.noteAll events (.done result)), n⟩ moves
      ⟨.ready (.done result'), m⟩) :
    eventsIn moves = events ∧ result' = result := by
  induction events generalizing moves with
  | nil =>
      obtain ⟨rfl, heq⟩ := Exchange.path_done h
      cases heq
      exact ⟨rfl, rfl⟩
  | cons event rest ih =>
      cases h with
      | @step _ _ _ _ later first others =>
          cases first with
          | note _ _ _ =>
              obtain ⟨hevents, hresult⟩ := ih others
              exact ⟨congrArg (event :: ·) hevents, hresult⟩

/-- A conversation that validates queries counts its outcomes, and nothing
else. -/
theorem eventsIn_of_endsWith
    (h : (v.validateAll queries).EndsWith moves outcomes) :
    eventsIn moves = outcomes.flatMap eventsOf := by
  obtain ⟨fresh, hreach⟩ := h
  cases hreach with
  | step first others =>
      cases first with
      | searchAll _ _ _ _ =>
          obtain ⟨seen, rest, ts, replies, rfl, hpath, -, -, hrest⟩ :=
            Trials.path_of_exchange (.ofQueries queries) others
              (fun t ht => by cases ht) rfl
          obtain ⟨hevents, houtcomes⟩ := eventsIn_of_noteAll hrest
          rw [List.nil_append, eventsIn_append,
            eventsIn_of_talk hpath.talkIn_eq, hevents, houtcomes,
            List.nil_append]

end Validator

-- ================================================== the main statement

/-- Everything that is told of outcomes tells the same. -/
structure Tells (outcomes : List Outcome) (s : Summary) : Prop where
  sums : s.Sums outcomes
  lists : ∀ (collection : String) (corpus : Corpus) (mode : SearchMode)
      (k moment : Nat),
    RunReport.Lists outcomes s
      ((RunReport.ofOutcomes collection corpus mode k outcomes).toJson moment)
  failures : ∀ limit, 1 ≤ limit →
    Failures outcomes s limit (failureGrid? outcomes limit)
  /-- If the outcomes are those of a validation, what it counts are the
  queries, the failures and the recalls. -/
  counts : ∀ (v : Validator) (queries : List Record) (moves : List Move),
    (v.validateAll queries).EndsWith moves outcomes → ∀ t : Telemetry,
      (eventsIn moves).foldl Telemetry.add t
        = { t with
            queriesValidated := t.queriesValidated + s.queries
            queryFailures := t.queryFailures + s.failed
            recalls :=
              ((reportsOf outcomes).map Report.recallRate).reverse
                ++ t.recalls }
  /-- If the report is written, or none is, the run ends well if all queries
  passed, and otherwise it says how many did not. -/
  concludes : ∀ (settings : Settings) (corpus : Corpus),
    ((requirePassed (settings.conclude ⟨corpus, outcomes⟩)).settle (.ok ())).2
      = if s.allPassed then .ok ()
        else .error (.queriesFailed s.failed s.queries)
  exitCode_eq : (Failure.queriesFailed s.failed s.queries).exitCode = 1

/-- Outcomes whose judgements are those of comparisons are told in one way by
the summary, the report, the table of failures, the counters and the end of
the run. -/
theorem outcomes_tell {outcomes : List Outcome}
    (hcompared : ∀ o ∈ outcomes, o.IsCompared) :
    Tells outcomes (.ofOutcomes outcomes) where
  sums := sums_ofOutcomes hcompared
  lists collection corpus mode k moment :=
    RunReport.lists (.ofOutcomes collection corpus mode k outcomes) moment
  failures _ hlimit := failures outcomes hlimit
  counts v queries moves hends t := by
    rw [Validator.eventsIn_of_endsWith hends, Telemetry.foldl_add_flatMap,
      length_failing]
    rfl
  concludes settings corpus := by
    unfold Ending.settle
    cases (requirePassed (settings.conclude ⟨corpus, outcomes⟩)).output? with
    | none => rfl
    | some output => rfl
  exitCode_eq := rfl

-- ------------------------------------------------------------ an instance

/-- The outcomes of an answer that is complete, one that is not, and none. -/
def mixedOutcomes (complete missed : Report) : List Outcome :=
  [⟨⟨1⟩, 0, .ok complete⟩, ⟨⟨2⟩, 0, .ok missed⟩,
    ⟨⟨3⟩, 0, .error (.interrupted "cancelled")⟩]

/-- Comparisons have such outcomes, and they are told in one way. -/
theorem outcomes_tell_mixed : ∃ complete missed,
    Comparator.compare { mode := .exact } [] [] = .ok complete ∧
    Comparator.compare { mode := .exact } [⟨⟨7⟩, ⟨0⟩⟩] [] = .ok missed ∧
    (∀ o ∈ mixedOutcomes complete missed, o.IsCompared) ∧
    Tells (mixedOutcomes complete missed)
      (.ofOutcomes (mixedOutcomes complete missed)) := by
  have htolerance : ({ mode := .exact } : Comparator).HasTolerance := by
    decide +kernel
  have hrecall : ({ mode := .exact } : Comparator).HasRecall := by
    decide +kernel
  obtain ⟨complete, hcomplete, -⟩ :=
    Comparator.exists_judges htolerance hrecall [] []
  obtain ⟨missed, hmissed, -⟩ :=
    Comparator.exists_judges htolerance hrecall [⟨⟨7⟩, ⟨0⟩⟩] []
  have hcompared : ∀ o ∈ mixedOutcomes complete missed, o.IsCompared := by
    unfold mixedOutcomes
    rw [List.forall_mem_cons, List.forall_mem_cons, List.forall_mem_singleton]
    refine ⟨fun r hr => ?_, fun r hr => ?_, fun r hr => (by cases hr)⟩
    · cases hr
      exact ⟨_, _, _, hcomplete⟩
    · cases hr
      exact ⟨_, _, _, hmissed⟩
  exact ⟨complete, missed, hcomplete, hmissed, hcompared,
    outcomes_tell hcompared⟩

end KnnOracle
