/-
What a service remembers.

A collection has a dimension, and the records in it are those that
searches see. A transaction gathers records for one collection; until it
is committed no search sees them. Both are kept by name, and transactions
are never forgotten, so that a name is never given out twice.
-/
import KnnOracle.Dictionary
import KnnOracle.Exchange.Call

namespace KnnOracle.Service

/-- A collection. -/
structure Collection where
  dimension : Nat
  committed : List Record
  hasIndex : Bool

/-- Where a transaction stands. -/
inductive TransactionStatus where
  | opened
  | committed
  | aborted
deriving DecidableEq, Repr

/-- The name of a status. -/
def TransactionStatus.text : TransactionStatus → String
  | .opened => "Open"
  | .committed => "Committed"
  | .aborted => "Aborted"

/-- A transaction. -/
structure Transaction where
  collection : String
  staged : List Record
  status : TransactionStatus

/-- All that a service remembers. -/
structure State where
  collections : Dictionary String Collection
  transactions : Dictionary String Transaction
  /-- The number of the last transaction. -/
  counter : UInt64
  upsertCalls : Nat

namespace State

/-- The state of a service that was never called. -/
def initial : State := ⟨.empty, .empty, 0, 0⟩

/-- The records of a collection that searches see. -/
def committed (s : State) (name : String) : List Record :=
  ((s.collections.get? name).map Collection.committed).getD []

/-- The number of transactions with a status. -/
def count (s : State) (status : TransactionStatus) : Nat :=
  (s.transactions.values.filter fun t => t.status = status).length

end State

/-- How a service deviates from a faithful one. -/
structure Options where
  /-- The token that requests must carry. -/
  token : Option String := none
  /-- Batches with this record fail. -/
  failUpsertFor : Option RecordId := none
  /-- Searches leave out the neighbor at this rank. -/
  dropRank : Option Nat := none
  /-- Added to every score. -/
  scoreBias : Float := 0.0
  /-- Added to every component of a fetched vector. -/
  fetchBias : Float := 0.0

/-- Why a service does not do what it was asked. -/
structure Refusal where
  status : Nat
  text : String

end KnnOracle.Service
