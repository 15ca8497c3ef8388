/-
Outcomes as tables.

The summary is one table, and the queries that failed are another, which
is left out if there are none.
-/
import KnnOracle.Text.Grid
import KnnOracle.Validation.Outcome

namespace KnnOracle

open Text

-- ============================================================== summary

/-- A summary as a table. -/
def Summary.grid (s : Summary) : Grid :=
  { head := ["Metric", "Value"]
    rows :=
      [["Queries", toString s.queries],
        ["Passed", toString s.passed],
        ["Failed", toString s.failed],
        ["Errored", toString s.errored],
        ["Mean recall", Decimal.fixed 4 s.meanRecall],
        ["Min recall", Decimal.fixed 4 s.minRecall],
        ["Max score delta", Decimal.scientific 2 false s.maxScoreDelta]] }

-- ============================================================= failures

/-- Ids in a row. -/
def idList (ids : List RecordId) : String :=
  ", ".intercalate (ids.map RecordId.text)

/-- A deviation of scores, counted from the oracle's. -/
def ScoreDelta.text (d : ScoreDelta) : String :=
  d.id.text ++ " ("
    ++ Decimal.scientific 2 true
      (d.serviceScore.toFloat - d.oracleScore.toFloat) ++ ")"

/-- The row of a query that failed. -/
def Outcome.row (o : Outcome) : List String :=
  match o.result with
  | .ok r =>
      [o.query.text, Decimal.fixed 3 r.recallRate, idList r.falseNegatives,
        idList r.falsePositives,
          ", ".intercalate (r.scoreMismatches.map ScoreDelta.text), ""]
  | .error e => [o.query.text, "-", "-", "-", "-", e.message]

/-- The first queries that failed as a table, or nothing. -/
def failureGrid? (outcomes : List Outcome) (limit : Nat) : Option Grid :=
  let failures := (outcomes.filter fun o => !o.passed).take limit
  if failures.isEmpty then none
  else
    some
      { head := ["Query", "Recall", "Missing", "Unexpected",
          "Score mismatches", "Error"]
        rows := failures.map Outcome.row }

-- ============================================================= printing

/-- How many failures are printed. -/
def printedFailures : Nat := 20

/-- What is printed about outcomes. -/
def printedOutcomes (outcomes : List Outcome) : String :=
  "\nValidation Summary\n------------------\n"
    ++ (Summary.ofOutcomes outcomes).grid.text
    ++ "\n\n"
    ++ match failureGrid? outcomes printedFailures with
      | none => ""
      | some grid =>
          "Failing Queries\n---------------\n" ++ grid.text ++ "\n\n"

end KnnOracle
