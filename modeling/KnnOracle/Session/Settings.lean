/-
Settings of a run.

Without further word a run uploads two thousand synthetic vectors of
dimension five and validates a hundred queries against them.
-/
import KnnOracle.Comparison
import KnnOracle.Dataset.Format
import KnnOracle.Dataset.Synthetic
import KnnOracle.Exchange.Upload
import KnnOracle.Http.Client

namespace KnnOracle

/-- The settings of a run. -/
structure Settings where
  host : String := "http://127.0.0.1:8443"
  token : Option String := none
  /-- Whether certificates are taken without a check. -/
  insecure : Bool := true
  timeoutSeconds : Nat := 30
  collection : String := "testdb"
  dimension : Nat := 5
  /-- The size of the synthetic corpus, if there is no dataset. -/
  count : Nat := 2000
  seed : UInt64 := 42
  dataset : Option String := none
  createIndex : Bool := true
  batchSize : Nat := 20
  workers : Nat := 32
  /-- How many records are fetched back after the upload. -/
  readback : Nat := 10
  k : Nat := defaultK
  tolerance : Float := defaultTolerance
  minRecall : Float := 0.0
  mode : SearchMode := .approximate
  queries : Nat := 100
  /-- The noise that makes a query of a record. -/
  perturbation : Float := 0.25
  concurrency : Nat := 8
  /-- Where the report goes. -/
  report : Option String := none

namespace Settings

/-- The client of the service. -/
def client (s : Settings) : Http.Client := .ofHost s.host s.token

/-- What answers are held to. -/
def comparator (s : Settings) : Comparator :=
  ⟨s.tolerance, s.mode, s.minRecall⟩

/-- How the corpus is uploaded. -/
def uploadOptions (s : Settings) : Upload.Options := ⟨s.batchSize, s.workers⟩

end Settings

end KnnOracle
