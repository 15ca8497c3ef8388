/-
The report of a run.

A report holds what was validated against what, the summary, and one
entry for each query in order, with either the judgement or the reason
why there is none.
-/
import KnnOracle.Corpus.Fingerprint
import KnnOracle.Text.Moment
import KnnOracle.Validation.Outcome
import KnnOracle.Wire.Comparison

namespace KnnOracle

open Json

/-- The report of a run. -/
structure RunReport where
  collection : String
  corpusSize : Nat
  corpusFingerprint : String
  mode : SearchMode
  k : Nat
  outcomes : List Outcome

namespace RunReport

/-- The report on outcomes. -/
def ofOutcomes (collection : String) (corpus : Corpus) (mode : SearchMode)
    (k : Nat) (outcomes : List Outcome) : RunReport :=
  { collection
    corpusSize := corpus.size
    corpusFingerprint := corpus.fingerprint
    mode, k, outcomes }

/-- A summary as JSON. -/
def summaryToJson (s : Summary) : Value :=
  .object
    [("queries", .nat s.queries), ("passed", .nat s.passed),
      ("failed", .nat s.failed), ("errored", .nat s.errored),
      ("mean_recall", .real s.meanRecall),
      ("min_recall", .real s.minRecall),
        ("max_score_delta", .real s.maxScoreDelta)]

/-- The entry of a query. -/
def entryToJson (o : Outcome) : Value :=
  .object
    ([("query", o.query.toJson), ("passed", .bool o.passed),
      ("elapsed_ms", .real (Text.milliseconds o.elapsed))]
      ++ (o.report?.map fun r => ("report", r.toJson)).toList
      ++ (o.error?.map fun e => ("error", Value.text e.message)).toList)

/-- The report as JSON. `moment` is when it was made, in nanoseconds since
the beginning of 1970. -/
def toJson (r : RunReport) (moment : Nat) : Value :=
  .object
    [("generated_at", .text (Text.momentText moment)),
      ("collection", .text r.collection),
      ("corpus_size", .nat r.corpusSize),
      ("corpus_fingerprint", .text r.corpusFingerprint),
      ("mode", r.mode.toJson),
      ("k", .nat r.k),
      ("summary", summaryToJson (Summary.ofOutcomes r.outcomes)),
      ("queries", .list (r.outcomes.map entryToJson))]

/-- The text of the report. -/
def text (r : RunReport) (moment : Nat) : String := (r.toJson moment).pretty

end RunReport

end KnnOracle
