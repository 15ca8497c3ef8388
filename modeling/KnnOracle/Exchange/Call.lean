/-
Calls to a vector-database service.

A call is one thing that a service can be asked, and `Call.Answer` says
what kind of answer it has if all goes well. What comes back is a
`Reply`: such an answer, or the cause for which there is none.
-/
import KnnOracle.Wire.Collection
import KnnOracle.Wire.Search
import KnnOracle.Wire.Upload

namespace KnnOracle

-- ============================================================ the calls

/-- A batch of records on its way into a transaction. -/
structure Batch where
  collection : String
  transaction : TransactionId
  records : List Record

/-- What a service can be asked. -/
inductive Call where
  | createCollection (request : CollectionRequest)
  | getCollection (name : String)
  | deleteCollection (name : String)
  | createIndex (request : IndexRequest)
  | createTransaction (collection : String)
  | upsert (batch : Batch)
  | commit (collection : String) (transaction : TransactionId)
  | abort (collection : String) (transaction : TransactionId)
  | fetch (request : FetchRequest)
  | search (request : SearchRequest)

namespace Call

/-- The kind of answer that a call has. -/
@[reducible]
def Answer : Call → Type
  | .createCollection _ => Json.Value
  | .getCollection _ => Json.Value
  | .deleteCollection _ => Unit
  | .createIndex _ => Json.Value
  | .createTransaction _ => TransactionId
  | .upsert _ => Unit
  | .commit _ _ => Unit
  | .abort _ _ => Unit
  | .fetch _ => Record
  | .search _ => List Neighbor

/-- The name of what a call does. -/
def action : Call → String
  | .createCollection _ => "Create collection"
  | .getCollection _ => "Get collection"
  | .deleteCollection _ => "Delete collection"
  | .createIndex _ => "Create index"
  | .createTransaction _ => "Create transaction"
  | .upsert _ => "Upsert"
  | .commit _ _ => "Commit transaction"
  | .abort _ _ => "Abort transaction"
  | .fetch _ => "Fetch vector"
  | .search _ => "Search"

end Call

-- ========================================================== the replies

/-- Why a call has no answer. -/
inductive CallError where
  /-- The service did not respond. -/
  | unreachable (reason : String)
  /-- The service refused. -/
  | rejected (action : String) (status : Nat) (body : String)
  /-- The response is not what was asked for. -/
  | unreadable (reason : String)
  /-- The answer is scored under a metric that is no cosine. -/
  | incomparable (metric : Metric)
  /-- A batch of an upload failed. -/
  | batchFailed (batch : Nat) (cause : CallError)
  /-- The call was asked to do what cannot be done. -/
  | invalidOption (reason : String)

namespace CallError

/-- The wording of a cause. -/
def message : CallError → String
  | .unreachable reason => "Network error: " ++ reason
  | .rejected action status body =>
      action ++ " failed: " ++ toString status ++ ": " ++ body
  | .unreadable reason => "Failed to decode response: " ++ reason
  | .incomparable metric =>
      "Metric " ++ metric.text ++ " is not comparable to cosine similarity"
  | .batchFailed batch cause =>
      "Upsert of batch " ++ toString batch ++ " failed: " ++ cause.message
  | .invalidOption reason => "Invalid option: " ++ reason

/-- The status of a refusal, if the service responded at all. -/
def status? : CallError → Option Nat
  | .rejected _ status _ => some status
  | .batchFailed _ cause => cause.status?
  | _ => none

end CallError

/-- What comes back from a call. -/
abbrev Reply (call : Call) : Type := Except CallError call.Answer

end KnnOracle
