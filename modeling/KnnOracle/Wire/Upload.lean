/-
Messages about transactions and uploads.

A service names a transaction with a number or with a text; either way
its id is a text from then on. Vectors are uploaded with metadata of any
shape, which is left out where there is none.
-/
import KnnOracle.Wire.Basic

namespace KnnOracle

open Json

-- ======================================================= transactions

/-- The name that a service gave to a transaction. -/
structure TransactionId where
  text : String
deriving DecidableEq, Hashable, Inhabited, Repr

/-- An id as JSON. -/
def TransactionId.toJson (id : TransactionId) : Value := .text id.text

/-- Reads an id: a natural number of 64 bits or a text. -/
def TransactionId.ofJson? (t : Tree) : Option TransactionId :=
  match t with
  | .number _ => t.natural64?.map fun n => ⟨toString n⟩
  | _ => t.text?.map fun s => ⟨s⟩

/-- The answer to the request for a transaction. -/
structure TransactionAnswer where
  id : TransactionId

/-- The answer as JSON. -/
def TransactionAnswer.toJson (a : TransactionAnswer) : Value :=
  .object [("transaction_id", a.id.toJson)]

/-- Reads an answer. -/
def TransactionAnswer.ofJson? (t : Tree) : Option TransactionAnswer :=
  match t.fields? ["transaction_id"] 0 with
  | some [some id] => (TransactionId.ofJson? id).map TransactionAnswer.mk
  | _ => none

-- ============================================================= uploads

/-- A vector on its way into a collection. -/
structure UploadVector where
  id : RecordId
  values : List Float
  metadata : Option Value

/-- A batch of vectors. -/
structure UploadRequest where
  vectors : List UploadVector

/-- A batch of records without metadata. -/
def UploadRequest.ofRecords (records : List Record) : UploadRequest :=
  ⟨records.map fun r => ⟨r.id, r.values, none⟩⟩

/-- The records of a batch. -/
def UploadRequest.records (r : UploadRequest) : List Record :=
  r.vectors.map fun v => ⟨v.id, v.values⟩

/-- A vector as JSON. -/
def UploadVector.toJson (v : UploadVector) : Value :=
  .object ([("id", v.id.toJson), ("values", floatsToJson v.values)]
    ++ match v.metadata with
      | none => []
      | some metadata => [("metadata", metadata)])

/-- Reads a vector, which stands three levels deep in its message. -/
def UploadVector.ofJson? (t : Tree) : Option UploadVector :=
  match t.fields? ["id", "values", "metadata"] 1 with
  | some [some id, some values, metadata] => do
      let id ← RecordId.ofJson? id
      let values ← floatsOfJson? values
      let metadata ← Tree.optionalField?
        (Tree.toValue? (Tree.nestingLimit - 3)) metadata
      some ⟨id, values, metadata⟩
  | _ => none

/-- A batch as JSON. -/
def UploadRequest.toJson (r : UploadRequest) : Value :=
  .object [("vectors", .list (r.vectors.map UploadVector.toJson))]

/-- Reads a batch. -/
def UploadRequest.ofJson? (t : Tree) : Option UploadRequest :=
  match t.fields? ["vectors"] 0 with
  | some [some vectors] =>
      (vectors.list? UploadVector.ofJson?).map UploadRequest.mk
  | _ => none

end KnnOracle
