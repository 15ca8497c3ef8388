/-
JSON form of a judgement on one answer.

The verdict is not part of it, since it follows from the rest.
-/
import KnnOracle.Wire.Basic

namespace KnnOracle

open Json

/-- Two scores of an id as JSON. -/
def ScoreDelta.toJson (d : ScoreDelta) : Value :=
  .object [("id", d.id.toJson), ("oracle_score", .real d.oracleScore.toFloat),
    ("service_score", .real d.serviceScore.toFloat), ("delta", .real d.delta)]

/-- Ids as a JSON list. -/
def idsToJson (ids : List RecordId) : Value := .list (ids.map RecordId.toJson)

/-- A judgement as JSON. -/
def Report.toJson (r : Report) : Value :=
  .object
    [("mode", r.mode.toJson),
      ("k", .nat r.k),
      ("tolerance", .real r.tolerance),
      ("min_recall", .real r.minRecall),
      ("recall", .real r.recallRate),
      ("matched", .list (r.matched.map ScoreDelta.toJson)),
      ("score_mismatches", .list (r.scoreMismatches.map ScoreDelta.toJson)),
      ("false_positives", idsToJson r.falsePositives),
      ("false_negatives", idsToJson r.falseNegatives),
      ("duplicates", idsToJson r.duplicates),
      ("service_ranked", .bool r.serviceRanked)]

end KnnOracle
