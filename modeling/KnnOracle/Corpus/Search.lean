/-
Exact nearest neighbors.

`Corpus.search` scores every record against the query and keeps the best
`k`, ties in corpus order. A query that cannot be scored is refused
before any record is looked at; a record that cannot be scored ends the
search, whether or not it could have been among the best.
-/
import KnnOracle.Corpus
import KnnOracle.Ranking
import KnnOracle.Similarity

namespace KnnOracle

/-- A way to score two vectors. -/
abbrev Scoring := List Float → List Float → Except Fault Score

/-- Scores two vectors by the cosine of the angle between them. -/
def cosine : Scoring := fun a b => (similarity a b).map Score.ofFloat

/-- The neighbor that a record is under a scoring, or the scoring's
refusal with the record's id in front. -/
def Record.scoreWith (scoring : Scoring) (query : List Float) (r : Record) :
    Except Fault Neighbor :=
  match scoring query r.values with
  | .ok s => .ok ⟨r.id, s⟩
  | .error e => .error (.atRecord r.id e)

/-- Scores records in order, up to the first that cannot be scored. -/
def scoreAll (scoring : Scoring) (query : List Float) :
    List Record → Except Fault (List Neighbor)
  | [] => .ok []
  | r :: rest =>
      match r.scoreWith scoring query with
      | .error e => .error e
      | .ok n =>
          match scoreAll scoring query rest with
          | .error e => .error e
          | .ok ns => .ok (n :: ns)

namespace Corpus

/-- Refuses a query with a NaN or an infinity, with the wrong number of
components (an empty corpus takes any), or of norm zero. -/
def admit? (c : Corpus) (query : Record) : Except Fault Unit :=
  match query.firstNonFinite? with
  | some index => .error (.nonFinite query.id index)
  | none =>
      if !c.isEmpty && query.dimension != c.dimension then
        .error (.atRecord query.id
          (.dimensionMismatch c.dimension query.dimension))
      else if norm query.values == 0.0 then
        .error (.atRecord query.id (.degenerate .left))
      else .ok ()

/-- All records, ranked under a scoring. -/
def rankingWith (scoring : Scoring) (c : Corpus) (query : Record) :
    Except Fault (List Neighbor) :=
  match c.admit? query with
  | .error e => .error e
  | .ok () =>
      match scoreAll scoring query.values c.records with
      | .error e => .error e
      | .ok scored => .ok (Neighbor.rank scored)

/-- The best `k` records under a scoring. -/
def searchWith (scoring : Scoring) (c : Corpus) (query : Record) (k : Nat) :
    Except Fault (List Neighbor) :=
  (c.rankingWith scoring query).map (List.take k)

/-- The `k` nearest neighbors of a query by cosine similarity. -/
def search (c : Corpus) (query : Record) (k : Nat) :
    Except Fault (List Neighbor) :=
  c.searchWith cosine query k

end Corpus

end KnnOracle
