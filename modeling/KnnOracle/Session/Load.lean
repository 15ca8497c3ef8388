/-
Loading a service.

The corpus is made and checked before anything is sent. Then the
collection and its index are created, where a conflict means that they
are there already, and the records are uploaded. At last a sample of them
is fetched back and compared component by component.
-/
import KnnOracle.Corpus
import KnnOracle.Session.Failure
import KnnOracle.Session.Settings

namespace KnnOracle

-- ============================================================ the corpus

/-- The records of the corpus: those of the dataset, or synthetic ones. -/
def Settings.corpusRecords (s : Settings) (read : Storage.Reader) :
    Except Failure (List Record) :=
  match s.dataset with
  | none =>
      match Synthetic.corpus? s.seed s.count s.dimension with
      | .ok records => .ok records
      | .error e => .error (.recordsNotMade e)
  | some path =>
      match Dataset.load read path s.dimension with
      | .ok records => .ok records
      | .error e => .error (.datasetNotLoaded path e)

/-- The corpus of a run. -/
def Settings.corpus (s : Settings) (read : Storage.Reader) :
    Except Failure Corpus :=
  match s.corpusRecords read with
  | .error e => .error e
  | .ok records =>
      match Corpus.make? s.dimension records with
      | .ok corpus => .ok corpus
      | .error e => .error (.corpusRejected e)

-- =========================================================== preparation

/-- The status that says that something is there already. -/
def conflict : Nat := 409

/-- Whether a reply lets the run go on: the thing was made, or was there. -/
def tolerated {α : Type} : Except CallError α → Except CallError Unit
  | .ok _ => .ok ()
  | .error e => if e.status? = some conflict then .ok () else .error e

/-- Creates the collection. -/
def createCollection (s : Settings) : Conversation (Except Failure Unit) :=
  .ask (.createCollection
      (.ofDimension s.collection (some "Oracle validation corpus")
        s.dimension)) fun reply =>
    match tolerated reply with
    | .ok () => .done (.ok ())
    | .error e => .done (.error (.collectionNotCreated e))

/-- Creates the index, if there is to be one. -/
def createIndex (s : Settings) : Conversation (Except Failure Unit) :=
  if s.createIndex then
    .ask (.createIndex (.cosineGraph s.collection)) fun reply =>
      match tolerated reply with
      | .ok () => .done (.ok ())
      | .error e => .done (.error (.indexNotCreated e))
  else .done (.ok ())

/-- Uploads the corpus. -/
def uploadCorpus (s : Settings) (corpus : Corpus) :
    Conversation (Except Failure Upload.Summary) :=
  (Upload.start s.collection corpus.records s.uploadOptions).bind fun
    | .ok summary => .done (.ok summary)
    | .error e => .done (.error (.uploadFailed e))

-- ========================================================== reading back

/-- Every element whose position is a multiple of `step`, where `skip`
elements are still to be passed over. -/
def everyNth {α : Type} (step : Nat) : Nat → List α → List α
  | _, [] => []
  | 0, x :: rest => x :: everyNth step (step - 1) rest
  | skip + 1, _ :: rest => everyNth step skip rest

/-- At most `n` elements of a list at equal distances, from the first on. -/
def sample {α : Type} (list : List α) (n : Nat) : List α :=
  let n := min n list.length
  (everyNth (if n = 0 then 1 else list.length / n) 0 list).take n

/-- The largest deviation of two vectors, component by component; a
component that cannot be compared counts for nothing. -/
def drift (expected stored : List Float) : Float :=
  (expected.zip stored).foldl (fun worst p => larger worst (p.1 - p.2).abs) 0.0

/-- Compares a stored vector with the record it should be. -/
def checkStored (tolerance : Float) (expected stored : Record) :
    Except Failure Unit :=
  if stored.dimension ≠ expected.dimension then
    .error (.readBackDimension expected.id stored.dimension expected.dimension)
  else
    let deviation := drift expected.values stored.values
    if deviation > tolerance then
      .error (.readBackDrift expected.id deviation tolerance)
    else .ok ()

/-- Fetches records back in order, up to the first that is not faithful. -/
def readBack (s : Settings) : List Record → Conversation (Except Failure Unit)
  | [] => .done (.ok ())
  | expected :: rest =>
      .ask (.fetch ⟨s.collection, expected.id⟩) fun
        | .error e => .done (.error (.notReadBack expected.id e))
        | .ok stored =>
            match checkStored s.tolerance expected stored with
            | .error e => .done (.error e)
            | .ok () => readBack s rest

-- =============================================================== loading

/-- What was loaded. -/
structure Loaded where
  corpus : Corpus
  upload : Upload.Summary

/-- Loads a corpus into the service. -/
def loadCorpus (s : Settings) (corpus : Corpus) :
    Conversation (Except Failure Loaded) :=
  .note (.corpusSize corpus.size) <|
    (createCollection s).andThen fun () =>
      (createIndex s).andThen fun () =>
        (uploadCorpus s corpus).andThen fun upload =>
          (readBack s (sample corpus.records s.readback)).andThen fun () =>
            .done (.ok ⟨corpus, upload⟩)

/-- Makes the corpus and loads it into the service. -/
def load (s : Settings) (read : Storage.Reader) :
    Conversation (Except Failure Loaded) :=
  match s.corpus read with
  | .error e => .done (.error e)
  | .ok corpus => loadCorpus s corpus

end KnnOracle
