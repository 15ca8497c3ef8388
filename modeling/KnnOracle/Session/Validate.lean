/-
Validating a loaded service.

The corpus is made anew from the same settings, and queries are drawn
near its records with a seed of their own. Their ids follow the largest
id of the corpus, so that none of them is the id of a record.
-/
import KnnOracle.Powers
import KnnOracle.Session.Load
import KnnOracle.Validation.Document
import KnnOracle.Validation.Engine

namespace KnnOracle

-- =============================================================== queries

/-- The largest id of a corpus. -/
def Corpus.largestId? (c : Corpus) : Option UInt64 :=
  reduce? max (c.records.map fun r => r.id.value)

/-- The first id that no record of a corpus has, nor any after it. -/
def firstQueryId (c : Corpus) : Except Failure UInt64 :=
  match c.largestId? with
  | none => .ok 0
  | some largest =>
      if largest.toNat + 1 < 2 ^ 64 then .ok (largest + 1)
      else .error (.noRoomForQueries ⟨largest⟩)

/-- The queries of a run. -/
def buildQueries (s : Settings) (corpus : Corpus) :
    Except Failure (List Record) :=
  match firstQueryId corpus with
  | .error e => .error e
  | .ok firstId =>
      let stream := Random.Stream.ofSeed (s.seed + 1)
      match (Synthetic.queries corpus.records s.queries s.perturbation firstId
        stream).1 with
      | .ok queries => .ok queries
      | .error e => .error (.queriesNotMade e)

-- ============================================================ validation

/-- The validator of a run. -/
def Settings.validator (s : Settings) (corpus : Corpus) : Validator :=
  { collection := s.collection
    corpus
    comparator := s.comparator
    k := s.k
    concurrency := s.concurrency }

/-- What was validated. -/
structure Validated where
  corpus : Corpus
  outcomes : List Outcome

/-- The summary of a validation. -/
def Validated.summary (v : Validated) : Summary := .ofOutcomes v.outcomes

/-- The report of a validation. -/
def Validated.report (s : Settings) (v : Validated) : RunReport :=
  .ofOutcomes s.collection v.corpus s.mode s.k v.outcomes

/-- Validates a service that holds a corpus. -/
def validateCorpus (s : Settings) (corpus : Corpus) :
    Conversation (Except Failure Validated) :=
  match buildQueries s corpus with
  | .error e => .done (.error e)
  | .ok queries =>
      ((s.validator corpus).validateAll queries).bind fun outcomes =>
        .done (.ok ⟨corpus, outcomes⟩)

/-- Makes the corpus and validates the service with it. -/
def validate (s : Settings) (read : Storage.Reader) :
    Conversation (Except Failure Validated) :=
  match s.corpus read with
  | .error e => .done (.error e)
  | .ok corpus => validateCorpus s corpus

end KnnOracle
