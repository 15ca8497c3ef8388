/-
Messages about collections.

A collection is made with its dimension and with what is to be stored of
each vector; an index is made on it afterwards. Settings that were left
open are written as `null`.
-/
import KnnOracle.Powers
import KnnOracle.Wire.Basic

namespace KnnOracle

open Json

-- ======================================================= the collection

/-- How dense vectors are kept. -/
structure DenseOptions where
  enabled : Bool
  autoCreateIndex : Bool
  dimension : Nat

/-- How sparse vectors are kept. -/
structure SparseOptions where
  enabled : Bool
  autoCreateIndex : Bool

/-- The limits of a collection. -/
structure CollectionLimits where
  maxVectors : Option Nat
  replicationFactor : Option Nat

/-- The request to make a collection. -/
structure CollectionRequest where
  name : String
  description : Option String
  dense : DenseOptions
  sparse : SparseOptions
  metadataSchema : Option Value
  limits : CollectionLimits

/-- A collection of dense vectors, whose index is made later. -/
def CollectionRequest.ofDimension (name : String) (description : Option String)
    (dimension : Nat) : CollectionRequest :=
  { name, description
    dense := ⟨true, false, dimension⟩
    sparse := ⟨false, false⟩
    metadataSchema := none
    limits := ⟨none, none⟩ }

/-- The options as JSON. -/
def DenseOptions.toJson (o : DenseOptions) : Value :=
  .object [("enabled", .bool o.enabled),
    ("auto_create_index", .bool o.autoCreateIndex),
    ("dimension", .nat o.dimension)]

/-- Reads the options. -/
def DenseOptions.ofJson? (t : Tree) : Option DenseOptions :=
  match t.fields? ["enabled", "auto_create_index", "dimension"] 0 with
  | some [some enabled, some auto, some dimension] => do
      let enabled ← enabled.bool?
      let auto ← auto.bool?
      let dimension ← dimension.natural64?
      some ⟨enabled, auto, dimension⟩
  | _ => none

/-- The options as JSON. -/
def SparseOptions.toJson (o : SparseOptions) : Value :=
  .object [("enabled", .bool o.enabled),
    ("auto_create_index", .bool o.autoCreateIndex)]

/-- Reads the options. -/
def SparseOptions.ofJson? (t : Tree) : Option SparseOptions :=
  match t.fields? ["enabled", "auto_create_index"] 0 with
  | some [some enabled, some auto] => do
      let enabled ← enabled.bool?
      let auto ← auto.bool?
      some ⟨enabled, auto⟩
  | _ => none

/-- The limits as JSON. -/
def CollectionLimits.toJson (l : CollectionLimits) : Value :=
  .object [("max_vectors", .ofOption .nat l.maxVectors),
    ("replication_factor", .ofOption .nat l.replicationFactor)]

/-- Reads the limits, of 64 and of 32 bits. -/
def CollectionLimits.ofJson? (t : Tree) : Option CollectionLimits :=
  match t.fields? ["max_vectors", "replication_factor"] 0 with
  | some [maxVectors, replicationFactor] => do
      let maxVectors ← Tree.optionalField? Tree.natural64? maxVectors
      let replicationFactor ← Tree.optionalField? (Tree.natural? (2 ^ 32))
        replicationFactor
      some ⟨maxVectors, replicationFactor⟩
  | _ => none

/-- The request as JSON. -/
def CollectionRequest.toJson (r : CollectionRequest) : Value :=
  .object [("name", .text r.name),
    ("description", .ofOption .text r.description),
    ("dense_vector", r.dense.toJson), ("sparse_vector", r.sparse.toJson),
    ("metadata_schema", .ofOption id r.metadataSchema),
      ("config", r.limits.toJson)]

/-- Reads a request. The schema may be nested as deep as the text. -/
def CollectionRequest.ofJson? (t : Tree) : Option CollectionRequest :=
  match t.fields? ["name", "description", "dense_vector", "sparse_vector",
    "metadata_schema",
      "config"] 0 with
  | some [some name, description, some dense, some sparse, schema,
      some limits] => do
      let name ← name.text?
      let description ← Tree.optionalField? Tree.text? description
      let dense ← DenseOptions.ofJson? dense
      let sparse ← SparseOptions.ofJson? sparse
      let schema ← Tree.optionalField?
        (Tree.toValue? (Tree.nestingLimit - 1)) schema
      let limits ← CollectionLimits.ofJson? limits
      some ⟨name, description, dense, sparse, schema, limits⟩
  | _ => none

-- ============================================================ the index

/-- The sizes of a layered graph. -/
structure GraphParameters where
  layerCount : Nat
  maxCacheSize : Nat

/-- The request to make an index. -/
structure IndexRequest where
  collection : String
  name : String
  metric : String
  quantization : String
  dataType : String
  indexType : String
  parameters : GraphParameters

/-- A layered graph under the cosine, with vectors in eight bits. -/
def IndexRequest.cosineGraph (collection : String) : IndexRequest :=
  { collection
    name := collection
    metric := "cosine"
    quantization := "scalar"
    dataType := "u8"
    indexType := "hnsw"
    parameters := ⟨5, 1000⟩ }

/-- The sizes as JSON. -/
def GraphParameters.toJson (p : GraphParameters) : Value :=
  .object [("num_layers", .nat p.layerCount),
    ("max_cache_size", .nat p.maxCacheSize)]

/-- Reads the sizes, of eight and of 32 bits. -/
def GraphParameters.ofJson? (t : Tree) : Option GraphParameters :=
  match t.fields? ["num_layers", "max_cache_size"] 0 with
  | some [some layers, some cache] => do
      let layers ← layers.natural? (2 ^ 8)
      let cache ← cache.natural? (2 ^ 32)
      some ⟨layers, cache⟩
  | _ => none

/-- The request as JSON. -/
def IndexRequest.toJson (r : IndexRequest) : Value :=
  .object [("collection_name", .text r.collection), ("name", .text r.name),
    ("distance_metric_type", .text r.metric),
      ("quantization", .text r.quantization),
    ("data_type", .text r.dataType), ("index_type", .text r.indexType),
    ("params", r.parameters.toJson)]

/-- Reads a request. -/
def IndexRequest.ofJson? (t : Tree) : Option IndexRequest :=
  match t.fields? ["collection_name", "name", "distance_metric_type",
    "quantization",
      "data_type", "index_type", "params"] 0 with
  | some [some collection, some name, some metric, some quantization,
      some dataType, some indexType, some parameters] => do
      let collection ← collection.text?
      let name ← name.text?
      let metric ← metric.text?
      let quantization ← quantization.text?
      let dataType ← dataType.text?
      let indexType ← indexType.text?
      let parameters ← GraphParameters.ofJson? parameters
      some ⟨collection, name, metric, quantization, dataType, indexType,
        parameters⟩
  | _ => none

end KnnOracle
