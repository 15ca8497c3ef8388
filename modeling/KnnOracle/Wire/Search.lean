/-
Messages about searches and stored vectors.

A service answers a search with a list of entries. An entry is an id with
a number under the name of a metric, or an id with a bare score. Only two
metrics can be turned into a similarity: the cosine itself, and the
cosine distance, which is one minus it.

The entries of an answer are read twice: once as free-form values, so
that every part of them has to make sense, and then as entries.
-/
import KnnOracle.Wire.Basic

namespace KnnOracle

open Json

-- ============================================================ requests

/-- The request for the neighbors of a vector. -/
structure SearchRequest where
  collection : String
  vector : List Float
  k : Option Nat

/-- The request as JSON; without `k` the service decides. -/
def SearchRequest.toJson (r : SearchRequest) : Value :=
  .object
    ([("vector_db_name", .text r.collection),
    ("vector", floatsToJson r.vector)]
    ++ match r.k with
      | none => []
      | some k => [("k", .nat k)])

/-- Reads a request. -/
def SearchRequest.ofJson? (t : Tree) : Option SearchRequest :=
  match t.fields? ["vector_db_name", "vector", "k"] 1 with
  | some [some collection, some vector, k] => do
      let collection ← collection.text?
      let vector ← floatsOfJson? vector
      let k ← Tree.optionalField? Tree.natural64? k
      some ⟨collection, vector, k⟩
  | _ => none

/-- The request for a stored vector. -/
structure FetchRequest where
  collection : String
  id : RecordId

/-- The request as JSON. -/
def FetchRequest.toJson (r : FetchRequest) : Value :=
  .object [("vector_db_name", .text r.collection), ("vector_id", r.id.toJson)]

/-- Reads a request. -/
def FetchRequest.ofJson? (t : Tree) : Option FetchRequest :=
  match t.fields? ["vector_db_name", "vector_id"] 0 with
  | some [some collection, some id] => do
      let collection ← collection.text?
      let id ← RecordId.ofJson? id
      some ⟨collection, id⟩
  | _ => none

-- ============================================================= metrics

/-- The metrics that a service may score with. -/
inductive Metric where
  | cosineSimilarity
  | cosineDistance
  | euclideanDistance
  | hammingDistance
  | dotProductDistance
deriving DecidableEq, Repr

namespace Metric

/-- The name of a metric. -/
def text : Metric → String
  | .cosineSimilarity => "CosineSimilarity"
  | .cosineDistance => "CosineDistance"
  | .euclideanDistance => "EuclideanDistance"
  | .hammingDistance => "HammingDistance"
  | .dotProductDistance => "DotProductDistance"

/-- All metrics. -/
def all : List Metric :=
  [.cosineSimilarity, .cosineDistance, .euclideanDistance, .hammingDistance,
    .dotProductDistance]

/-- The metric with a name. -/
def ofText? (name : String) : Option Metric :=
  all.find? fun m => m.text == name

/-- The similarity that a number under a metric stands for, or the metric
if it has none. -/
def similarity (m : Metric) (x : Float) : Except Metric Float :=
  match m with
  | .cosineSimilarity => .ok x
  | .cosineDistance => .ok (1.0 - x)
  | other => .error other

end Metric

-- ============================================================= answers

/-- One entry of a service's answer. -/
inductive AnswerEntry where
  | tagged (id : RecordId) (metric : Metric) (value : Float)
  | scored (id : RecordId) (score : Float)

/-- The body of a service's answer. -/
structure AnswerBody where
  entries : Option (List AnswerEntry)

/-- A service's answer; everything about it may be missing. -/
structure SearchAnswer where
  body : Option AnswerBody

/-- The answer that says nothing. -/
def SearchAnswer.empty : SearchAnswer := ⟨none⟩

namespace AnswerEntry

/-- An entry as JSON. -/
def toJson : AnswerEntry → Value
  | .tagged id metric value =>
      .list [id.toJson, .object [(metric.text, .real value)]]
  | .scored id score => .object [("id", id.toJson), ("score", .real score)]

/-- Reads the number under a metric: an object with that one member. -/
def metricOfJson? : Tree → Option (Metric × Float)
  | .object [(name, value)] => do
      let name ← (Tree.string name).text?
      let metric ← Metric.ofText? name
      let value ← value.float?
      some (metric, value)
  | _ => none

/-- Reads an entry that makes sense as a value. -/
def ofTree? : Tree → Option AnswerEntry
  | .array [id, value] => do
      let id ← RecordId.ofJson? id
      let (metric, value) ← metricOfJson? value
      some (.tagged id metric value)
  | .object members =>
      match (Tree.object members).fields? ["id", "score"] 0 with
      | some [some id, some score] => do
          let id ← RecordId.ofJson? id
          let score ← score.float?
          some (.scored id score)
      | _ => none
  | _ => none

/-- Reads an entry, which stands three levels deep in its message. -/
def ofJson? (t : Tree) : Option AnswerEntry :=
  match t.toValue? (Tree.nestingLimit - 3) with
  | none => none
  | some _ => ofTree? t

/-- The neighbor that an entry stands for. -/
def neighbor? : AnswerEntry → Except Metric Neighbor
  | .tagged id metric value =>
      match metric.similarity value with
      | .ok s => .ok ⟨id, Score.ofFloat s⟩
      | .error m => .error m
  | .scored id score => .ok ⟨id, Score.ofFloat score⟩

end AnswerEntry

/-- A body as JSON. -/
def AnswerBody.toJson (b : AnswerBody) : Value :=
  .object
    [("knn", .ofOption (fun entries => .list (entries.map AnswerEntry.toJson))
      b.entries)]

/-- Reads a body. -/
def AnswerBody.ofJson? (t : Tree) : Option AnswerBody :=
  match t.fields? ["knn"] 1 with
  | some [entries] =>
      (Tree.optionalField? (Tree.list? AnswerEntry.ofJson?) entries).map
        AnswerBody.mk
  | _ => none

namespace SearchAnswer

/-- An answer as JSON. -/
def toJson (a : SearchAnswer) : Value :=
  .object [("RespVectorKNN", .ofOption AnswerBody.toJson a.body)]

/-- Reads an answer. -/
def ofJson? (t : Tree) : Option SearchAnswer :=
  match t.fields? ["RespVectorKNN"] 1 with
  | some [body] =>
      (Tree.optionalField? AnswerBody.ofJson? body).map SearchAnswer.mk
  | _ => none

/-- The answer that lists neighbors with their similarities. -/
def ofNeighbors (list : List Neighbor) : SearchAnswer :=
  ⟨some ⟨some (list.map fun n =>
    .tagged n.id .cosineSimilarity n.score.toFloat)⟩⟩

/-- The entries of an answer; none where anything is missing. -/
def entries (a : SearchAnswer) : List AnswerEntry :=
  ((a.body.bind AnswerBody.entries).getD [])

/-- The neighbors of an answer in its order, or the first metric that is
no cosine. -/
def neighbors? (a : SearchAnswer) : Except Metric (List Neighbor) :=
  a.entries.mapM AnswerEntry.neighbor?

end SearchAnswer

end KnnOracle
