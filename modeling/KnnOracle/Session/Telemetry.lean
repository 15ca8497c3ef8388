/-
Telemetry of a run.

The events of a run are summed up by name. A counter is listed once
something was counted, the size of the corpus once there was one, and the
recalls with their number and their sum.

Recalls are floats, so the order in which they are added shows in the last
digits of their sum. They are gathered in blocks of 64, and a sum takes
the latest block first: nothing is left out (`summands_perm`), and a run
of one block is added up as it was recorded (`summands_eq_of_length_le`).
-/
import KnnOracle.Chunks
import KnnOracle.Decimal.Written
import KnnOracle.Exchange.Conversation

namespace KnnOracle

/-- The sums of the events of a run. -/
structure Telemetry where
  batchesUpserted : Nat := 0
  batchFailures : Nat := 0
  transactionsAborted : Nat := 0
  corpusSize : Option Nat := none
  queriesValidated : Nat := 0
  queryFailures : Nat := 0
  recalls : List Float := []

namespace Telemetry

/-- Takes an event into account. -/
def add (t : Telemetry) : Event → Telemetry
  | .batchUpserted => { t with batchesUpserted := t.batchesUpserted + 1 }
  | .batchFailed => { t with batchFailures := t.batchFailures + 1 }
  | .transactionAborted =>
      { t with transactionsAborted := t.transactionsAborted + 1 }
  | .corpusSize size => { t with corpusSize := some size }
  | .queryValidated => { t with queriesValidated := t.queriesValidated + 1 }
  | .queryFailed => { t with queryFailures := t.queryFailures + 1 }
  | .queryRecall value => { t with recalls := value :: t.recalls }

/-- The sums of events. -/
def ofEvents (events : List Event) : Telemetry := events.foldl add {}

/-- How many recalls a block holds. -/
def blockSize : Nat := 64

/-- The recalls in the order of their sum: blocks from the latest to the
first, each in the order of recording. -/
def summands (t : Telemetry) : List Float :=
  (chunks blockSize t.recalls.reverse).reverse.flatten

/-- The sum of the recalls. -/
def recallSum (t : Telemetry) : Float := t.summands.foldl (· + ·) 0.0

/-- The line of a counter that was used. -/
def counterLine (name : String) (count : Nat) : List String :=
  if count = 0 then [] else [name ++ " " ++ toString count]

/-- One line for each sum there is, sorted by name. -/
def lines (t : Telemetry) : List String :=
  counterLine "vecoracle_batch_failures_total" t.batchFailures
    ++ counterLine "vecoracle_batches_upserted_total" t.batchesUpserted
    ++ (t.corpusSize.map fun n =>
      "vecoracle_corpus_vectors " ++ toString n).toList
    ++ counterLine "vecoracle_queries_validated_total" t.queriesValidated
    ++ counterLine "vecoracle_query_failures_total" t.queryFailures
    ++ counterLine "vecoracle_query_recall_count" t.recalls.length
    ++ (if t.recalls.isEmpty then []
      else ["vecoracle_query_recall_sum " ++ Decimal.plain t.recallSum])
    ++ counterLine "vecoracle_transactions_aborted_total" t.transactionsAborted

/-- What is said where nothing was ever counted. -/
def absentText : String := "# metrics not initialized"

-- ============================================== the order of a sum

/-- A sum takes every recall, and takes it once. -/
theorem summands_perm (t : Telemetry) : t.summands.Perm t.recalls :=
  (flatten_reverse_chunks_perm _ _).trans (List.reverse_perm _)

/-- What fits into one block is added up as it was recorded. -/
theorem summands_eq_of_length_le {t : Telemetry}
    (h : t.recalls.length ≤ blockSize) :
    t.summands = t.recalls.reverse := by
  rw [summands, flatten_reverse_chunks_of_length_le
    (by rwa [List.length_reverse])]

end Telemetry

end KnnOracle
