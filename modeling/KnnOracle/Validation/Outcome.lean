/-
Outcomes of queries.

Every query has an outcome of its own: the judgement on the service's
answer, or the reason why there is none. A summary counts outcomes and
gathers the extreme values of the judgements; a query without a judgement
counts as failed.
-/
import KnnOracle.Comparison
import KnnOracle.Exchange.Call

namespace KnnOracle

-- ============================================================ outcomes

/-- Why there is no judgement on a query. -/
inductive QueryError where
  | oracle (cause : Fault)
  | service (cause : CallError)
  /-- The oracle did not finish. -/
  | interrupted (reason : String)

/-- The wording of a cause. -/
def QueryError.message : QueryError → String
  | .oracle cause => "Oracle error: " ++ cause.message
  | .service cause => "Service error: " ++ cause.message
  | .interrupted reason => "Oracle task failed: " ++ reason

/-- What came of one query, and how many nanoseconds it took. -/
structure Outcome where
  query : RecordId
  elapsed : Nat
  result : Except QueryError Report

namespace Outcome

/-- The judgement, if there is one. -/
def report? (o : Outcome) : Option Report :=
  match o.result with
  | .ok r => some r
  | .error _ => none

/-- The cause, if there is no judgement. -/
def error? (o : Outcome) : Option QueryError :=
  match o.result with
  | .ok _ => none
  | .error e => some e

/-- Whether the service's answer is acceptable. -/
def passed (o : Outcome) : Bool := (o.report?.map Report.passed).getD false

end Outcome

-- ============================================================= summary

/-- What came of all queries. -/
structure Summary where
  queries : Nat
  passed : Nat
  failed : Nat
  /-- Those of the failed queries that have no judgement. -/
  errored : Nat
  meanRecall : Float
  minRecall : Float
  maxScoreDelta : Float

namespace Summary

/-- Summarizes outcomes. Without judgements all extremes are zero. -/
def ofOutcomes (outcomes : List Outcome) : Summary :=
  let reports := outcomes.filterMap Outcome.report?
  let passed := (outcomes.filter Outcome.passed).length
  let recalls := reports.map Report.recallRate
  { queries := outcomes.length
    passed
    failed := outcomes.length - passed
    errored := outcomes.length - reports.length
    meanRecall :=
      if reports.isEmpty then 0.0
      else recalls.foldl (· + ·) 0.0 / Float.ofNat reports.length
    minRecall := (reduce? smaller recalls).getD 0.0
    maxScoreDelta :=
      (reduce? larger (reports.filterMap Report.maxDelta?)).getD 0.0 }

/-- Whether no query failed. -/
def allPassed (s : Summary) : Bool := s.failed == 0

end Summary

end KnnOracle
