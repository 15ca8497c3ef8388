/-
The wire format is a fixed point of writing and reading.

A text may spell a value in many ways: fields in any order and among
others, structures as lists, fields left out or `null`, ids as numbers or
texts, numbers of any form, strings with escapes, keys repeated. What is
written of the value spells it in one way, and that way is read as the
same value, so that writing it once more changes nothing
(`wire_fixedPoints`).

Every decoder is stable under the writer of its type. That is shown here
structure by structure, from the parts up; the grammar does the rest
(`decode?_render`).
-/
import Mathlib
import KnnOracle.Proofs.Ranking.Zero
import KnnOracle.Proofs.Wire.Structures
import KnnOracle.Wire.Collection
import KnnOracle.Wire.Search
import KnnOracle.Wire.Upload

namespace KnnOracle

open Json

-- ===================================================== the oracle's own

/-- Every id is written as a number that is read as the id. -/
theorem ofJson?_id (id : RecordId) :
    RecordId.ofJson? id.toJson.tree = some id := by
  have hlt : id.value.toNat < 2 ^ 64 := id.value.toNat_lt
  unfold RecordId.ofJson? RecordId.toJson
  rw [Tree.natural64?, natural?_nat hlt]
  simp

/-- Ids are stable: a number or a text is read, and a number is written, which
is read as the same id. -/
private theorem stable_id : Stable RecordId.toJson RecordId.ofJson? :=
  fun _ id _ => ofJson?_id id

private theorem stable_floats : Stable floatsToJson floatsOfJson? :=
  stable_list stable_float

/-- Records are stable. A list in field order and an object with other fields
come out as the one object of `id` and `values`. -/
private theorem stable_record : Stable Record.toJson Record.ofJson? := by
  intro t r h
  unfold Record.ofJson? at h ⊢
  split at h
  · next id values hfields =>
      simp only [Option.bind_eq_bind, Option.bind_eq_some_iff,
        Option.some.injEq] at h
      obtain ⟨id', hid, values', hvalues, rfl⟩ := h
      rw [Record.toJson, fields?_object (by simp)]
      simp [List.lookup, stable_id _ _ hid, stable_floats _ _ hvalues]
  · cases h

/-- A record of finite components is read as it was written. -/
theorem ofJson?_record {r : Record} (h : ∀ v ∈ r.values, v.isFinite = true) :
    Record.ofJson? r.toJson.tree = some r := by
  have hvalues : floatsOfJson? (floatsToJson r.values).tree
      = some r.values := by
    rw [floatsToJson, Value.tree]
    exact mapM_listTrees fun v hv => float?_real (h v hv)
  rw [Record.ofJson?, Record.toJson, fields?_object (by simp)]
  simp [List.lookup, ofJson?_id, hvalues]

/-- Neighbors are stable. The score keeps its bits on the way to a float and
back, as every score that is read is finite. -/
private theorem stable_neighbor : Stable Neighbor.toJson Neighbor.ofJson? := by
  intro t n h
  unfold Neighbor.ofJson? at h ⊢
  split at h
  · next id score hfields =>
      simp only [Option.bind_eq_bind, Option.bind_eq_some_iff,
        Option.some.injEq] at h
      obtain ⟨id', hid, score', hscore, rfl⟩ := h
      rw [Neighbor.toJson, fields?_object (by simp)]
      simp [List.lookup, stable_id _ _ hid, Score.toFloat_ofFloat,
        stable_float _ _ hscore]
  · cases h

/-- Search modes are stable, which is looked up for each of the two. -/
private theorem stable_mode : Stable SearchMode.toJson SearchMode.ofJson? := by
  intro t m _
  have htext : (SearchMode.toJson m).tree.text? = some m.text :=
    text?_codePoints m.text
  change (SearchMode.toJson m).tree.text?.bind SearchMode.ofText? = _
  rw [htext]
  cases m <;> decide

-- ======================================================== transactions

/-- The answer that opens a transaction is stable: its id is any text. -/
private theorem stable_transactionAnswer :
    Stable TransactionAnswer.toJson TransactionAnswer.ofJson? := by
  intro t a _
  have htext : TransactionId.ofJson? a.id.toJson.tree = some a.id := by
    have h := text?_codePoints a.id.text
    change (Tree.string (codePoints a.id.text)).text?.map _ = _
    rw [h]
    rfl
  unfold TransactionAnswer.ofJson?
  rw [TransactionAnswer.toJson, fields?_object (by simp)]
  simp [List.lookup, htext]

-- ============================================================= uploads

/-- A vector to be stored is stable. Its metadata is left out when there is
none, so that the written object has two forms. -/
private theorem stable_uploadVector :
    Stable UploadVector.toJson UploadVector.ofJson? := by
  intro t v h
  unfold UploadVector.ofJson? at h ⊢
  split at h
  · next id values metadata hfields =>
      simp only [Option.bind_eq_bind, Option.bind_eq_some_iff,
        Option.some.injEq] at h
      obtain ⟨id', hid, values', hvalues, metadata', hmetadata, rfl⟩ := h
      have hkept :=
        optionalField?_ofOption (stable_value _) value_ne_null hmetadata
      unfold UploadVector.toJson
      cases metadata' with
      | none =>
          rw [fields?_object (by simp)]
          simp [List.lookup, stable_id _ _ hid, stable_floats _ _ hvalues,
            Tree.optionalField?]
      | some metadata' =>
          rw [fields?_object (by simp)]
          rw [Value.ofOption, id_eq] at hkept
          simp [List.lookup, stable_id _ _ hid,
            stable_floats _ _ hvalues, hkept]
  · cases h

private theorem stable_uploadRequest :
    Stable UploadRequest.toJson UploadRequest.ofJson? := by
  intro t r h
  unfold UploadRequest.ofJson? at h ⊢
  split at h
  · next vectors hfields =>
      obtain ⟨vectors', hvectors, rfl⟩ := Option.map_eq_some_iff.mp h
      rw [UploadRequest.toJson, fields?_object (by simp)]
      have hsame := stable_list stable_uploadVector _ _ hvectors
      simp [List.lookup, hsame]
  · cases h

-- ==================================================== searches, fetching

/-- Numbers of 64 bits are stable. They are counts and dimensions, also as
fields that may be left out. -/
private theorem stable_natural64 : Stable Value.nat Tree.natural64? :=
  stable_natural (2 ^ 64)

/-- A search is stable. Its number of neighbors is left out when none is given,
so that the written object has two forms. -/
private theorem stable_searchRequest :
    Stable SearchRequest.toJson SearchRequest.ofJson? := by
  intro t r h
  unfold SearchRequest.ofJson? at h ⊢
  split at h
  · next collection vector k hfields =>
      simp only [Option.bind_eq_bind, Option.bind_eq_some_iff,
        Option.some.injEq] at h
      obtain ⟨collection', hcollection, vector', hvector, k', hk, rfl⟩ := h
      have hkept := optionalField?_ofOption stable_natural64
        (ne_null_of_stable stable_natural64 rfl) hk
      unfold SearchRequest.toJson
      cases k' with
      | none =>
          rw [fields?_object (by simp)]
          simp [List.lookup, stable_text _ _ hcollection,
            stable_floats _ _ hvector, Tree.optionalField?]
      | some k' =>
          rw [fields?_object (by simp)]
          rw [Value.ofOption] at hkept
          simp [List.lookup, stable_text _ _ hcollection,
            stable_floats _ _ hvector, hkept]
  · cases h

private theorem stable_fetchRequest :
    Stable FetchRequest.toJson FetchRequest.ofJson? := by
  intro t r h
  unfold FetchRequest.ofJson? at h ⊢
  split at h
  · next collection id hfields =>
      simp only [Option.bind_eq_bind, Option.bind_eq_some_iff,
        Option.some.injEq] at h
      obtain ⟨collection', hcollection, id', hid, rfl⟩ := h
      rw [FetchRequest.toJson, fields?_object (by simp)]
      simp [List.lookup, stable_text _ _ hcollection, stable_id _ _ hid]
  · cases h

-- ============================================================= answers

/-- The name of a metric is read as the metric, which keeps a tagged entry what
it was. -/
private theorem Metric.ofText?_text (m : Metric) :
    Metric.ofText? m.text = some m := by
  cases m <;> decide

/-- What is read of an entry: its number is finite. -/
def AnswerEntry.Finite : AnswerEntry → Prop
  | .tagged _ _ x => x.isFinite = true
  | .scored _ x => x.isFinite = true

private theorem isFinite_of_metricOfJson? {t : Tree} {m : Metric} {x : Float}
    (h : AnswerEntry.metricOfJson? t = some (m, x)) : x.isFinite = true := by
  unfold AnswerEntry.metricOfJson? at h
  split at h
  · simp only [Option.bind_eq_bind, Option.bind_eq_some_iff, Option.some.injEq]
      at h
    obtain ⟨name, -, metric, -, x', hx, heq⟩ := h
    cases heq
    exact isFinite_of_tree_float? hx
  · cases h

/-- An entry that is read, in either shape, has a finite number. This is what
lets it be written with a number and not with `null`. -/
private theorem finite_of_ofTree? {t : Tree} {e : AnswerEntry}
    (h : AnswerEntry.ofTree? t = some e) :
    e.Finite := by
  unfold AnswerEntry.ofTree? at h
  split at h
  · simp only [Option.bind_eq_bind, Option.bind_eq_some_iff, Option.some.injEq]
      at h
    obtain ⟨id, -, ⟨metric, x⟩, hx, rfl⟩ := h
    exact isFinite_of_metricOfJson? hx
  · split at h
    · simp only [Option.bind_eq_bind, Option.bind_eq_some_iff,
        Option.some.injEq] at h
      obtain ⟨id, -, x, hx, rfl⟩ := h
      exact isFinite_of_tree_float? hx
    · cases h
  · cases h

/-- An id makes sense as a value at any depth, since it is one number of 64
bits. -/
private theorem plain_id (id : RecordId) (depth : Nat) :
    id.toJson.Plain depth := by
  have hlt := id.value.toNat_lt
  unfold RecordId.toJson Value.nat Value.Plain
  omega

/-- A written entry makes sense as a value, which is what the reader takes it
for before it looks at its shape. -/
theorem plain_entry {e : AnswerEntry} (h : e.Finite) :
    e.toJson.Plain (Tree.nestingLimit - 3) := by
  cases e with
  | tagged id metric x =>
      exact ⟨by decide, plain_id id _,
        ⟨by decide, List.pairwise_singleton _ _, h, trivial⟩, trivial⟩
  | scored id x =>
      have hsorted : Sorted [("id", id.toJson), ("score", Value.real x)] :=
        List.pairwise_pair.mpr (show "id" < "score" by decide)
      exact ⟨by decide, hsorted, plain_id id _, h, trivial⟩

/-- A finite entry is read in the shape in which it was written: a list for a
tagged one, an object for a scored one. -/
private theorem ofTree?_entry {e : AnswerEntry} (h : e.Finite) :
    AnswerEntry.ofTree? e.toJson.tree = some e := by
  cases e with
  | tagged id metric x =>
      have hmetric : AnswerEntry.metricOfJson?
          (Value.object [(metric.text, .real x)]).tree
          = some (metric, x) := by
        have hname := text?_codePoints metric.text
        have hx := float?_real h
        rw [Value.tree, memberTrees, memberTrees, AnswerEntry.metricOfJson?]
        simp [hname, Metric.ofText?_text, hx]
      have hentry := ofJson?_id id
      rw [AnswerEntry.toJson, Value.tree, listTrees, listTrees, listTrees,
        AnswerEntry.ofTree?]
      simp [hentry, hmetric]
  | scored id x =>
      have hentry := ofJson?_id id
      have hx := float?_real h
      have hfields :=
        @fields?_object [("id", id.toJson), ("score", .real x)] (by simp)
        ["id", "score"] 0
      rw [AnswerEntry.toJson, Value.tree, AnswerEntry.ofTree?, ← Value.tree,
        hfields]
      simp [List.lookup, hentry, hx]

/-- A finite entry is read as it was written, by way of a value. -/
theorem ofJson?_entry {e : AnswerEntry} (h : e.Finite) :
    AnswerEntry.ofJson? e.toJson.tree = some e := by
  unfold AnswerEntry.ofJson?
  rw [toValue?_tree _ _ (plain_entry h)]
  exact ofTree?_entry h

/-- Entries are stable, although each is read from a buffered value and not
from the text itself. -/
private theorem stable_entry :
    Stable AnswerEntry.toJson AnswerEntry.ofJson? := by
  intro t e h
  unfold AnswerEntry.ofJson? at h
  split at h
  · cases h
  · exact ofJson?_entry (finite_of_ofTree? h)

/-- The list of an answer is stable, also where it is missing or `null`. -/
private theorem stable_answerBody :
    Stable AnswerBody.toJson AnswerBody.ofJson? := by
  intro t b h
  unfold AnswerBody.ofJson? at h ⊢
  split at h
  · next entries hfields =>
      obtain ⟨entries', hentries, rfl⟩ := Option.map_eq_some_iff.mp h
      have hlist := stable_list stable_entry
      have hkept :=
        optionalField?_ofOption hlist (ne_null_of_stable hlist rfl) hentries
      rw [AnswerBody.toJson, fields?_object (by simp)]
      simp [List.lookup, hkept]
  · cases h

/-- Answers are stable, also where the message is missing or `null`. -/
private theorem stable_searchAnswer :
    Stable SearchAnswer.toJson SearchAnswer.ofJson? := by
  intro t a h
  unfold SearchAnswer.ofJson? at h ⊢
  split at h
  · next body hfields =>
      obtain ⟨body', hbody, rfl⟩ := Option.map_eq_some_iff.mp h
      have hkept := optionalField?_ofOption stable_answerBody
        (ne_null_of_stable stable_answerBody rfl) hbody
      rw [SearchAnswer.toJson, fields?_object (by simp)]
      simp [List.lookup, hkept]
  · cases h

-- ========================================================= collections

private theorem stable_denseOptions :
    Stable DenseOptions.toJson DenseOptions.ofJson? := by
  intro t o h
  unfold DenseOptions.ofJson? at h ⊢
  split at h
  · next enabled auto dimension hfields =>
      simp only [Option.bind_eq_bind, Option.bind_eq_some_iff,
        Option.some.injEq] at h
      obtain ⟨enabled', henabled, auto', hauto, dimension', hdimension, rfl⟩ :=
        h
      rw [DenseOptions.toJson, fields?_object (by simp)]
      simp [List.lookup, stable_bool _ _ henabled, stable_bool _ _ hauto,
        stable_natural64 _ _ hdimension]
  · cases h

private theorem stable_sparseOptions :
    Stable SparseOptions.toJson SparseOptions.ofJson? := by
  intro t o h
  unfold SparseOptions.ofJson? at h ⊢
  split at h
  · next enabled auto hfields =>
      simp only [Option.bind_eq_bind, Option.bind_eq_some_iff,
        Option.some.injEq] at h
      obtain ⟨enabled', henabled, auto', hauto, rfl⟩ := h
      rw [SparseOptions.toJson, fields?_object (by simp)]
      simp [List.lookup, stable_bool _ _ henabled, stable_bool _ _ hauto]
  · cases h

/-- The limits of a collection are stable. Both may be `null` or left out, and
both are written. -/
private theorem stable_limits :
    Stable CollectionLimits.toJson CollectionLimits.ofJson? := by
  intro t l h
  unfold CollectionLimits.ofJson? at h ⊢
  split at h
  · next vectors factor hfields =>
      simp only [Option.bind_eq_bind, Option.bind_eq_some_iff,
        Option.some.injEq] at h
      obtain ⟨vectors', hvectors, factor', hfactor, rfl⟩ := h
      have hvectors' := optionalField?_ofOption stable_natural64
        (ne_null_of_stable stable_natural64 rfl) hvectors
      have hfactor' := optionalField?_ofOption (stable_natural (2 ^ 32))
        (ne_null_of_stable (stable_natural (2 ^ 32)) rfl) hfactor
      rw [CollectionLimits.toJson, fields?_object (by simp)]
      simp [List.lookup, hvectors', hfactor']
  · cases h

/-- A request for a collection is stable. Its free-form metadata is a value,
which is sorted and numbered before it is written. -/
private theorem stable_collectionRequest :
    Stable CollectionRequest.toJson CollectionRequest.ofJson? := by
  intro t r h
  unfold CollectionRequest.ofJson? at h ⊢
  split at h
  · next name description dense sparse schema limits hfields =>
      simp only [Option.bind_eq_bind, Option.bind_eq_some_iff,
        Option.some.injEq] at h
      obtain ⟨name', hname, description', hdescription, dense', hdense,
        sparse', hsparse, schema', hschema, limits', hlimits, rfl⟩ := h
      have hdescription' := optionalField?_ofOption stable_text
        (ne_null_of_stable stable_text rfl) hdescription
      have hschema' :=
        optionalField?_ofOption (stable_value _) value_ne_null hschema
      rw [CollectionRequest.toJson, fields?_object (by simp)]
      simp [List.lookup, stable_text _ _ hname, hdescription',
        stable_denseOptions _ _ hdense, stable_sparseOptions _ _ hsparse,
        hschema', stable_limits _ _ hlimits]
  · cases h

private theorem stable_graphParameters :
    Stable GraphParameters.toJson GraphParameters.ofJson? := by
  intro t p h
  unfold GraphParameters.ofJson? at h ⊢
  split at h
  · next layers cache hfields =>
      simp only [Option.bind_eq_bind, Option.bind_eq_some_iff,
        Option.some.injEq] at h
      obtain ⟨layers', hlayers, cache', hcache, rfl⟩ := h
      rw [GraphParameters.toJson, fields?_object (by simp)]
      simp [List.lookup, stable_natural _ _ _ hlayers,
        stable_natural _ _ _ hcache]
  · cases h

/-- A request for an index is stable, as its texts and its parameters are. -/
private theorem stable_indexRequest :
    Stable IndexRequest.toJson IndexRequest.ofJson? := by
  intro t r h
  unfold IndexRequest.ofJson? at h ⊢
  split at h
  · next collection name metric quantization dataType indexType parameters
      hfields =>
      simp only [Option.bind_eq_bind, Option.bind_eq_some_iff,
        Option.some.injEq] at h
      obtain ⟨collection', hcollection, name', hname, metric', hmetric,
        quantization',
        hquantization, dataType', hdataType, indexType', hindexType,
          parameters', hparameters,
        rfl⟩ := h
      rw [IndexRequest.toJson, fields?_object (by simp)]
      simp [List.lookup, stable_text _ _ hcollection, stable_text _ _ hname,
        stable_text _ _ hmetric, stable_text _ _ hquantization,
          stable_text _ _ hdataType,
        stable_text _ _ hindexType, stable_graphParameters _ _ hparameters]
  · cases h

-- ======================================================= the wire format

/-- Whatever value a text is read as, the text written of it is read as
that value, and writing what was read gives the same text. -/
def FixedPoint {α : Type} (toJson : α → Value) (ofJson? : Tree → Option α) :
    Prop :=
  ∀ text v, decode? ofJson? text = some v →
    decode? ofJson? (toJson v).render = some v
      ∧ ∀ w, decode? ofJson? (toJson v).render = some w →
        (toJson w).render = (toJson v).render

/-- Stability carries over from trees to texts, since a written value is read
as its own tree. -/
private theorem fixedPoint_of_stable {α : Type} {toJson : α → Value}
    {ofJson? : Tree → Option α} (h : Stable toJson ofJson?) :
    FixedPoint toJson ofJson? := by
  intro text v hv
  obtain ⟨t, -, ht⟩ := Option.bind_eq_some_iff.mp hv
  have hsame : decode? ofJson? (toJson v).render = some v := by
    rw [decode?_render]
    exact h t v ht
  refine ⟨hsame, fun w hw => ?_⟩
  rw [hsame] at hw
  cases hw
  rfl

/-- The types that are both read and written. A fetched vector has the form
of a record. -/
structure WireFixedPoints : Prop where
  record : FixedPoint Record.toJson Record.ofJson?
  neighbor : FixedPoint Neighbor.toJson Neighbor.ofJson?
  id : FixedPoint RecordId.toJson RecordId.ofJson?
  mode : FixedPoint SearchMode.toJson SearchMode.ofJson?
  transactionAnswer : FixedPoint TransactionAnswer.toJson
    TransactionAnswer.ofJson?
  uploadRequest : FixedPoint UploadRequest.toJson UploadRequest.ofJson?
  searchRequest : FixedPoint SearchRequest.toJson SearchRequest.ofJson?
  fetchRequest : FixedPoint FetchRequest.toJson FetchRequest.ofJson?
  fetchedVector : FixedPoint Record.toJson Record.ofJson?
  collectionRequest : FixedPoint CollectionRequest.toJson
    CollectionRequest.ofJson?
  indexRequest : FixedPoint IndexRequest.toJson IndexRequest.ofJson?
  searchAnswer : FixedPoint SearchAnswer.toJson SearchAnswer.ofJson?

/-- However a value was spelled, what is written of it is read as the
value, and is written again. -/
theorem wire_fixedPoints : WireFixedPoints where
  record := fixedPoint_of_stable stable_record
  neighbor := fixedPoint_of_stable stable_neighbor
  id := fixedPoint_of_stable stable_id
  mode := fixedPoint_of_stable stable_mode
  transactionAnswer := fixedPoint_of_stable stable_transactionAnswer
  uploadRequest := fixedPoint_of_stable stable_uploadRequest
  searchRequest := fixedPoint_of_stable stable_searchRequest
  fetchRequest := fixedPoint_of_stable stable_fetchRequest
  fetchedVector := fixedPoint_of_stable stable_record
  collectionRequest := fixedPoint_of_stable stable_collectionRequest
  indexRequest := fixedPoint_of_stable stable_indexRequest
  searchAnswer := fixedPoint_of_stable stable_searchAnswer

/-- A spelling that is read, and the one form that is written of it. -/
def Respells {α : Type} (toJson : α → Value) (ofJson? : Tree → Option α)
    (spelled written : String) : Prop :=
  ∃ v, decode? ofJson? spelled = some v ∧ (toJson v).render = written ∧
    decode? ofJson? written = some v

/-- To apply a fixed point to a spelling, it is enough to compute what is
written of it. That the written form is read as the same value comes from the
fixed point. -/
private theorem FixedPoint.respells {α : Type} {toJson : α → Value}
    {ofJson? : Tree → Option α} (h : FixedPoint toJson ofJson?)
    {spelled written : String}
    (hwritten : (decode? ofJson? spelled).map (fun v => (toJson v).render)
      = some written) : Respells toJson ofJson? spelled written := by
  obtain ⟨v, hread, hrender⟩ := Option.map_eq_some_iff.mp hwritten
  refine ⟨v, hread, hrender, ?_⟩
  rw [← hrender]
  exact (h spelled v hread).1

/-- A list for a record, a number under a metric next to a bare score, and
free-form values with a number of more than 64 bits and a repeated key. -/
theorem wire_fixedPoints_spellings :
    Respells Record.toJson Record.ofJson?
      "[7, [1, 25e-1]]" "\x7b\"id\":7,\"values\":[1.0,2.5]\x7d" ∧
    Respells SearchAnswer.toJson SearchAnswer.ofJson?
      ("\x7b\"took\": 3, \"RespVectorKNN\": [[" ++
        "[7, \x7b\"CosineSimilarity\": 1\x7d], " ++
        "\x7b\"score\": 5e-1, \"id\": 9\x7d]]\x7d")
      ("\x7b\"RespVectorKNN\":\x7b\"knn\":[" ++
        "[7,\x7b\"CosineSimilarity\":1.0\x7d]," ++
        "\x7b\"id\":9,\"score\":0.5\x7d]\x7d\x7d") ∧
    Respells CollectionRequest.toJson CollectionRequest.ofJson?
      ("[\"c\", null, [true, false, 2], [false, false], " ++
        "\x7b\"a\": 1, \"b\": 18446744073709551616, " ++
        "\"a\": [\"\\u0041\"]\x7d, [null, 3]]")
      ("\x7b\"name\":\"c\",\"description\":null,\"dense_vector\":" ++
        "\x7b\"enabled\":true,\"auto_create_index\":false," ++
        "\"dimension\":2\x7d,\"sparse_vector\":" ++
        "\x7b\"enabled\":false,\"auto_create_index\":false\x7d," ++
        "\"metadata_schema\":" ++
        "\x7b\"a\":[\"A\"],\"b\":1.8446744073709552e+19\x7d," ++
        "\"config\":\x7b\"max_vectors\":null," ++
        "\"replication_factor\":3\x7d\x7d") := by
  refine ⟨wire_fixedPoints.record.respells ?_,
    wire_fixedPoints.searchAnswer.respells ?_,
    wire_fixedPoints.collectionRequest.respells ?_⟩
  · decide +kernel
  · decide +kernel
  · decide +kernel

end KnnOracle
