/-
How a service answers.

`step` is the whole service: what it answers to a call, and what it
remembers afterwards. Vectors go into a transaction; a commit carries
them over into the collection one by one, each replacing the vector with
its id or going to the end. Searches score the committed records with
the cosine, so an honest service (no options set) agrees with the oracle.
-/
import KnnOracle.Comparison
import KnnOracle.Exchange.Conversation
import KnnOracle.Service.State
import KnnOracle.Similarity

namespace KnnOracle.Service

open Json

-- ============================================================ refusals

/-- Something that was named does not exist. -/
def notFound (what : String) : Refusal := ⟨404, what ++ " not found"⟩

/-- What a service makes of a call. -/
abbrev Result (α : Type) : Type := Except Refusal α × State

-- ========================================================= collections

/-- Makes a collection, unless its name is taken. -/
def createCollection (s : State) (r : CollectionRequest) : Result Value :=
  if s.collections.contains r.name then
    (.error ⟨409, "collection " ++ r.name ++ " exists"⟩, s)
  else
    (.ok (.object [("description", .ofOption .text r.description),
      ("id", .text r.name),
        ("name", .text r.name)]),
      { s with
        collections :=
          s.collections.put r.name
            ⟨r.dense.dimension, [], r.dense.autoCreateIndex⟩ })

/-- Describes a collection. -/
def getCollection (s : State) (name : String) : Result Value :=
  match s.collections.get? name with
  | none => (.error (notFound "collection"), s)
  | some c =>
      (.ok (.object [("dimension", .nat c.dimension), ("name", .text name),
        ("vectors", .nat c.committed.length)]), s)

/-- Drops a collection. Its transactions stay. -/
def deleteCollection (s : State) (name : String) : Result Unit :=
  match s.collections.get? name with
  | none => (.error (notFound "collection"), s)
  | some _ => (.ok (), { s with collections := s.collections.erase name })

/-- Makes an index on a collection. -/
def createIndex (s : State) (r : IndexRequest) : Result Value :=
  match s.collections.get? r.collection with
  | none => (.error (notFound "collection"), s)
  | some c =>
      (.ok (.object [("collection_name", .text r.collection)]),
        { s with
          collections :=
            s.collections.put r.collection { c with hasIndex := true } })

-- ======================================================== transactions

/-- Opens a transaction on a collection, under the next number. -/
def createTransaction (s : State) (collection : String) :
    Result TransactionId :=
  match s.collections.get? collection with
  | none => (.error (notFound "collection"), s)
  | some _ =>
      let counter := s.counter + 1
      let name := toString counter.toNat
      (.ok ⟨name⟩,
        { s with
          counter
          transactions := s.transactions.put name ⟨collection, [], .opened⟩ })

/-- The open transaction with a name on a collection. -/
def openTransaction (s : State) (collection name : String) :
    Except Refusal Transaction :=
  match s.transactions.get? name with
  | none => .error (notFound "transaction")
  | some t =>
      if t.collection ≠ collection then .error (notFound "transaction")
      else if t.status ≠ .opened then
        .error ⟨409, "transaction " ++ name ++ " is " ++ t.status.text⟩
      else .ok t

/-- Refuses a batch for a collection of a dimension. -/
def admitBatch (o : Options) (dimension : Nat) (records : List Record) :
    Except Refusal Unit :=
  match records.find? fun r => r.dimension ≠ dimension with
  | some bad =>
      .error ⟨400, "vector " ++ bad.id.text ++ " has dimension "
        ++ toString bad.dimension
        ++ ", expected " ++ toString dimension⟩
  | none =>
      match o.failUpsertFor with
      | none => .ok ()
      | some id =>
          if records.any fun r => r.id = id then
            .error ⟨500, "injected failure for " ++ id.text⟩
          else .ok ()

/-- Gathers a batch into its transaction. Every attempt counts. -/
def upsert (o : Options) (s : State) (b : Batch) : Result Unit :=
  let s := { s with upsertCalls := s.upsertCalls + 1 }
  match s.collections.get? b.collection with
  | none => (.error (notFound "collection"), s)
  | some c =>
      match admitBatch o c.dimension b.records with
      | .error e => (.error e, s)
      | .ok () =>
          match openTransaction s b.collection b.transaction.text with
          | .error e => (.error e, s)
          | .ok t =>
              (.ok (),
                { s with
                  transactions :=
                    s.transactions.put b.transaction.text
                      { t with staged := t.staged ++ b.records } })

/-- Puts a record into a list: in place of the one with its id, or at the
end. -/
def place (r : Record) : List Record → List Record
  | [] => [r]
  | old :: rest => if old.id = r.id then r :: rest else old :: place r rest

/-- Puts records into a list one by one. -/
def placeAll (records : List Record) (into : List Record) : List Record :=
  records.foldl (fun list r => place r list) into

/-- Commits a transaction. It is closed and emptied before its collection
is looked for. -/
def commit (s : State) (collection : String) (transaction : TransactionId) :
    Result Unit :=
  match openTransaction s collection transaction.text with
  | .error e => (.error e, s)
  | .ok t =>
      let s :=
        { s with
          transactions :=
            s.transactions.put transaction.text { t with
              staged := [], status := .committed } }
      match s.collections.get? collection with
      | none => (.error (notFound "collection"), s)
      | some c =>
          (.ok (),
            { s with
              collections :=
                s.collections.put collection
                  { c with committed := placeAll t.staged c.committed } })

/-- Aborts a transaction. -/
def abort (s : State) (collection : String) (transaction : TransactionId) :
    Result Unit :=
  match openTransaction s collection transaction.text with
  | .error e => (.error e, s)
  | .ok t =>
      (.ok (),
        { s with
          transactions :=
            s.transactions.put transaction.text { t with
              staged := [], status := .aborted } })

-- ============================================================= reading

/-- Scores records, up to the first that cannot be scored. -/
def scoreRecords (bias : Float) (query : List Float) :
    List Record → Except Fault (List Neighbor)
  | [] => .ok []
  | r :: rest =>
      match similarity query r.values with
      | .error e => .error e
      | .ok s =>
          match scoreRecords bias query rest with
          | .error e => .error e
          | .ok ns => .ok (⟨r.id, Score.ofFloat (s + bias)⟩ :: ns)

/-- Leaves out the entry at a rank, if the list goes that far. -/
def dropAt {α : Type} (rank : Option Nat) (list : List α) : List α :=
  match rank with
  | none => list
  | some i => list.eraseIdx i

/-- Searches a collection. -/
def search (o : Options) (s : State) (r : SearchRequest) :
    Result (List Neighbor) :=
  match s.collections.get? r.collection with
  | none => (.error (notFound "collection"), s)
  | some c =>
      match scoreRecords o.scoreBias r.vector c.committed with
      | .error e => (.error ⟨400, e.message⟩, s)
      | .ok scored =>
          (.ok ((dropAt o.dropRank (Neighbor.rank scored)).take
            (r.k.getD defaultK)), s)

/-- Reads a record back. -/
def fetch (o : Options) (s : State) (r : FetchRequest) : Result Record :=
  match s.collections.get? r.collection with
  | none => (.error (notFound "collection"), s)
  | some c =>
      match c.committed.find? fun x => x.id = r.id with
      | none => (.error (notFound "vector"), s)
      | some x => (.ok ⟨x.id, x.values.map (· + o.fetchBias)⟩, s)

-- ========================================================= the service

/-- What a service answers to a call, and what it remembers then. -/
def step (o : Options) (s : State) : (call : Call) → Result call.Answer
  | .createCollection r => createCollection s r
  | .getCollection name => getCollection s name
  | .deleteCollection name => deleteCollection s name
  | .createIndex r => createIndex s r
  | .createTransaction collection => createTransaction s collection
  | .upsert batch => upsert o s batch
  | .commit collection transaction => commit s collection transaction
  | .abort collection transaction => abort s collection transaction
  | .fetch r => fetch o s r
  | .search r => search o s r

/-- The service as a caller meets it who needs no messages to reach it. -/
def responder (o : Options) : Responder (StateM State) := fun call =>
  modifyGet fun s =>
    match step o s call with
    | (.ok answer, s) => (.ok answer, s)
    | (.error e, s) => (.error (.rejected call.action e.status e.text), s)

end KnnOracle.Service
