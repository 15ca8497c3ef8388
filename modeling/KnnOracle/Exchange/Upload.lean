/-
Uploading a corpus in one transaction.

The records are cut into batches, and a bounded number of batches is in
flight at a time. The first batch that is refused stops the sending, and
the transaction is aborted; so it is where the commit is refused. What an
abort is answered with changes nothing any more. Only a corpus that was
accepted batch by batch is committed.
-/
import KnnOracle.Chunks
import KnnOracle.Exchange.Conversation

namespace KnnOracle.Upload

/-- How an upload is cut and how much of it is in flight. -/
structure Options where
  batchSize : Nat := 20
  workers : Nat := 32

/-- What was uploaded. -/
structure Summary where
  transaction : TransactionId
  batches : Nat
  vectors : Nat

/-- The batches of an upload. -/
def batches (collection : String) (transaction : TransactionId)
    (records : List Record) (batchSize : Nat) : List Batch :=
  (chunks batchSize records).map fun piece => ⟨collection, transaction, piece⟩

/-- Aborts a transaction, whatever the service says to that. -/
def abandon {α : Type} (collection : String) (transaction : TransactionId)
    (next : Conversation α) : Conversation α :=
  .note .transactionAborted
    (.ask (.abort collection transaction) fun _ => next)

/-- Ends an upload whose batches were all accepted. -/
def commit (collection : String) (summary : Summary) :
    Conversation (Except CallError Summary) :=
  .ask (.commit collection summary.transaction) fun
    | .ok () => .done (.ok summary)
    | .error e => abandon collection summary.transaction (.done (.error e))

/-- Ends an upload as its batches deserve. -/
def conclude (collection : String) (summary : Summary) (tally : Tally) :
    Conversation (Except CallError Summary) :=
  .noteAll (List.replicate tally.accepted .batchUpserted) <|
    match tally.refused? with
    | none => commit collection summary
    | some (batch, cause) =>
        .note .batchFailed
          (abandon collection summary.transaction
            (.done (.error (.batchFailed batch cause))))

/-- Uploads records into a collection. -/
def start (collection : String) (records : List Record) (options : Options) :
    Conversation (Except CallError Summary) :=
  if options.batchSize = 0 ∨ options.workers = 0 then
    .done (.error (.invalidOption
      ("batch_size and workers must be positive (got "
        ++ toString options.batchSize ++ " and "
        ++ toString options.workers ++ ")")))
  else
    .ask (.createTransaction collection) fun
      | .error e => .done (.error e)
      | .ok transaction =>
          let all := batches collection transaction records options.batchSize
          .upload options.workers all
            (conclude collection ⟨transaction, all.length, records.length⟩)

end KnnOracle.Upload
