/-
What comes of an answer to a search.

An answer is written with entries of one shape and may be read with two of
them, and a number that is not finite is written as `null`. So two things
are to be shown. An answer that was written is read as the neighbors that
it lists, with every bit of their scores, or it is not read at all
(`read_ofNeighbors`, `not_read_ofNeighbors`). And whatever is read, from
any text, is taken for what it says (`Understood`): nothing where the
message or its list is missing or `null`, and else one neighbor for each
entry, or the first metric that is no cosine.

The shapes cannot be mixed up (`Reads`): what names a metric is a list, and
what has a bare score is an object.
-/
import KnnOracle.Http.Client
import KnnOracle.Proofs.Decimal.Arithmetic
import KnnOracle.Proofs.Traversal
import KnnOracle.Proofs.Wire.FixedPoint

namespace KnnOracle

open Json
open Decimal
open Float.Model

-- =============================================================== scores

/-- A finite score keeps its bits on the way to a number and back. -/
theorem Score.ofFloat_toFloat {s : Score} (h : s.toFloat.isFinite = true) :
    ofFloat s.toFloat = s := by
  rw [ofFloat, toBits_toFloat (isNaN_of_isFinite h)]

/-- A number that is not finite is written as `null`. Writing does not fail,
and reading does. -/
theorem tree_real_of_not_finite {x : Float} (h : x.isFinite = false) :
    (Value.real x).tree = .null := by
  have hnone : compactNumeral? x = none := by
    change x.toModel.unpack.isFinite = false at h
    rw [unpack_eq] at h
    unfold compactNumeral?
    cases hm : Magnitude.ofFloat x with
    | nan => rfl
    | infinite => rfl
    | finite d =>
        rw [hm] at h
        dsimp only at h
        split at h <;> cases h
  rw [Value.tree, hnone]
  rfl

-- ========================================================= what is written

/-- An entry whose number is not finite is not read. -/
theorem ofJson?_entry_of_not_finite {id : RecordId} {metric : Metric}
    {x : Float} (h : x.isFinite = false) :
    AnswerEntry.ofJson? (AnswerEntry.tagged id metric x).toJson.tree
      = none := by
  have hnumber := tree_real_of_not_finite h
  have hmetric : AnswerEntry.metricOfJson?
      (Value.object [(metric.text, .real x)]).tree = none := by
    rw [Value.tree, memberTrees, memberTrees, AnswerEntry.metricOfJson?,
      hnumber]
    simp [Tree.float?]
  have hentry : AnswerEntry.ofTree?
      (AnswerEntry.tagged id metric x).toJson.tree = none := by
    rw [AnswerEntry.toJson, Value.tree, listTrees, listTrees, listTrees,
      AnswerEntry.ofTree?]
    simp [hmetric]
  unfold AnswerEntry.ofJson?
  rw [hentry]
  split <;> rfl

private theorem listTrees_eq_map (vs : List Value) :
    listTrees vs = vs.map Value.tree := by
  induction vs with
  | nil => rfl
  | cons v vs ih => rw [listTrees, ih, List.map_cons]

/-- A written answer is read entry by entry. -/
theorem ofJson?_written (entries : List AnswerEntry) :
    SearchAnswer.ofJson? (SearchAnswer.toJson ⟨some ⟨some entries⟩⟩).tree
      = ((listTrees (entries.map AnswerEntry.toJson)).mapM
        AnswerEntry.ofJson?).map
          fun read => ⟨some ⟨some read⟩⟩ := by
  have hbody : AnswerBody.ofJson? (AnswerBody.toJson ⟨some entries⟩).tree
      = ((listTrees (entries.map AnswerEntry.toJson)).mapM
        AnswerEntry.ofJson?).map
          fun read => ⟨some read⟩ := by
    unfold AnswerBody.ofJson?
    rw [AnswerBody.toJson, fields?_object (by simp)]
    simp [List.lookup, Value.ofOption, Value.tree, Tree.optionalField?,
      Tree.option?, Tree.list?]
    rfl
  unfold SearchAnswer.ofJson?
  rw [SearchAnswer.toJson, fields?_object (by simp)]
  have hobject : (AnswerBody.toJson ⟨some entries⟩).tree ≠ .null := fun h => by
    cases h
  simp only [List.lookup, Value.ofOption, Tree.optionalField?, List.map_cons,
    List.map_nil,
    beq_self_eq_true, Option.map_some, option?_of_ne hobject, hbody,
      Option.map_map]
  rfl

/-- Neighbors with finite scores are read again. -/
theorem read_ofNeighbors {list : List Neighbor}
    (h : ∀ n ∈ list, n.score.toFloat.isFinite = true) :
    decode? SearchAnswer.ofJson? (SearchAnswer.ofNeighbors list).toJson.render
      = some (SearchAnswer.ofNeighbors list) := by
  have hentries : ∀ e ∈ list.map fun n =>
        AnswerEntry.tagged n.id .cosineSimilarity n.score.toFloat,
      AnswerEntry.ofJson? e.toJson.tree = some e := by
    intro e he
    obtain ⟨n, hn, rfl⟩ := List.mem_map.mp he
    exact ofJson?_entry (h n hn)
  rw [decode?_render, SearchAnswer.ofNeighbors, ofJson?_written,
    mapM_listTrees hentries]
  rfl

/-- With a score that is not finite nothing is read, also none of the other
neighbors. -/
theorem not_read_ofNeighbors {list : List Neighbor} {n : Neighbor}
    (hn : n ∈ list) (h : n.score.toFloat.isFinite = false) :
    decode? SearchAnswer.ofJson? (SearchAnswer.ofNeighbors list).toJson.render
      = none := by
  rw [decode?_render, SearchAnswer.ofNeighbors, ofJson?_written,
    Option.map_eq_none_iff]
  cases hread : (listTrees ((list.map fun n =>
      AnswerEntry.tagged n.id .cosineSimilarity n.score.toFloat).map
        AnswerEntry.toJson)).mapM AnswerEntry.ofJson? with
  | none => rfl
  | some read =>
      have hitems := mapM_eq_some_iff.mp hread
      have hnone : none ∈ read.map some := by
        rw [← hitems, listTrees_eq_map, List.map_map, List.map_map,
          List.map_map]
        exact List.mem_map.mpr ⟨n, hn, ofJson?_entry_of_not_finite h⟩
      simp at hnone

/-- The entries that are written of neighbors stand for the same neighbors, bit
by bit. -/
theorem neighbors?_ofNeighbors {list : List Neighbor}
    (h : ∀ n ∈ list, n.score.toFloat.isFinite = true) :
    (SearchAnswer.ofNeighbors list).neighbors? = .ok list := by
  apply mapM_eq_ok_iff.mpr
  show List.Forall₂ _ (list.map fun n =>
    AnswerEntry.tagged n.id .cosineSimilarity n.score.toFloat)
    list
  rw [List.forall₂_map_left_iff, List.forall₂_same]
  intro n hn
  have hscore := Score.ofFloat_toFloat (h n hn)
  show Except.ok (⟨n.id, Score.ofFloat n.score.toFloat⟩ : Neighbor) = .ok n
  rw [hscore]

-- ============================================================ what is read

/-- A member of a message that may be left out: it is missing or `null`, or
it is there. -/
inductive Member (t : Tree) (name : String) : Option Tree → Prop where
  | missing (h : t.fields? [name] 1 = some [none]) : Member t name none
  | null (h : t.fields? [name] 1 = some [some .null]) : Member t name none
  | value (v : Tree) (h : t.fields? [name] 1 = some [some v])
      (hv : v ≠ .null) :
      Member t name (some v)

/-- The entries that a message lists. -/
inductive Lists (t : Tree) : List Tree → Prop where
  | silent (h : Member t "RespVectorKNN" none) : Lists t []
  | empty (body : Tree) (h : Member t "RespVectorKNN" (some body))
      (hknn : Member body "knn" none) :
      Lists t []
  | entries (body : Tree) (items : List Tree)
      (h : Member t "RespVectorKNN" (some body))
      (hknn : Member body "knn" (some (.array items))) : Lists t items

/-- What an entry says. It is a list of an id and an object that names a
metric, or an object of an id and a score. -/
inductive Reads : Tree → AnswerEntry → Prop where
  | tagged (id : Tree) (key : Units) (number : Tree) (id' : RecordId)
      (metric : Metric) (x : Float)
      (hid : RecordId.ofJson? id = some id')
      (hmetric : (Tree.string key).text? = some metric.text)
      (hnumber : number.float? = some x) :
      Reads (.array [id, .object [(key, number)]]) (.tagged id' metric x)
  | scored (members : List (Units × Tree)) (id score : Tree) (id' : RecordId)
      (x : Float)
      (h : (Tree.object members).fields? ["id", "score"] 0
        = some [some id, some score])
      (hid : RecordId.ofJson? id = some id') (hscore : score.float? = some x) :
      Reads (.object members) (.scored id' x)

/-- The neighbor that an entry stands for. -/
inductive Means : AnswerEntry → Neighbor → Prop where
  | score (id : RecordId) (s : Float) : Means (.scored id s) ⟨id, .ofFloat s⟩
  | similarity (id : RecordId) (s : Float) :
      Means (.tagged id .cosineSimilarity s) ⟨id, .ofFloat s⟩
  | distance (id : RecordId) (d : Float) :
      Means (.tagged id .cosineDistance d) ⟨id, .ofFloat (1.0 - d)⟩

/-- The metric of an entry that no similarity can be made of. -/
inductive Incomparable : AnswerEntry → Metric → Prop where
  | other (id : RecordId) (metric : Metric) (x : Float)
      (hsimilarity : metric ≠ .cosineSimilarity)
      (hdistance : metric ≠ .cosineDistance) :
      Incomparable (.tagged id metric x) metric

-- ============================================================= reading

/-- A field that may be left out is nothing, or it is the member that is
there. -/
theorem member_of_fields? {t : Tree} {name : String} {field : Option Tree}
    (h : t.fields? [name] 1 = some [field]) :
    (Member t name none ∧ ∀ {α : Type} (f : Tree → Option α),
      Tree.optionalField? f field = some none) ∨
    ∃ v, Member t name (some v) ∧ ∀ {α : Type} (f : Tree → Option α),
      Tree.optionalField? f field = (f v).map some := by
  cases field with
  | none => exact .inl ⟨.missing h, fun f => rfl⟩
  | some v =>
      by_cases hv : v = .null
      · subst hv
        exact .inl ⟨.null h, fun f => rfl⟩
      · exact .inr ⟨v, .value v h hv, fun f => option?_of_ne hv⟩

/-- A member has one value at most. `Lists.unique` builds on this: a message
does not list two different things. -/
private theorem Member.unique {t : Tree} {name : String} {v w : Option Tree}
    (hv : Member t name v) (hw : Member t name w) : v = w := by
  cases hv with
  | missing h =>
      cases hw with
      | missing _ => rfl
      | null _ => rfl
      | value w hw _ => simp [h] at hw
  | null h =>
      cases hw with
      | missing _ => rfl
      | null _ => rfl
      | value w hw hne =>
          rw [h] at hw
          cases hw
          exact absurd rfl hne
  | value v h hne =>
      cases hw with
      | missing hw => simp [h] at hw
      | null hw =>
          rw [h] at hw
          cases hw
          exact absurd rfl hne
      | value w hw _ =>
          rw [h] at hw
          cases hw
          rfl

/-- What a message lists is settled by it, so an answer cannot be understood in
two ways. -/
theorem Lists.unique {t : Tree} {items others : List Tree} (h : Lists t items)
    (h' : Lists t others) : items = others := by
  cases h with
  | silent h =>
      cases h' with
      | silent _ => rfl
      | empty _ h' _ => cases h.unique h'
      | entries _ _ h' _ => cases h.unique h'
  | empty body h hknn =>
      cases h' with
      | silent h' => cases h.unique h'
      | empty _ _ _ => rfl
      | entries _ _ h' hknn' =>
          cases h.unique h'
          cases hknn.unique hknn'
  | entries body items h hknn =>
      cases h' with
      | silent h' => cases h.unique h'
      | empty _ h' hknn' =>
          cases h.unique h'
          cases hknn.unique hknn'
      | entries _ _ h' hknn' =>
          cases h.unique h'
          cases hknn.unique hknn'
          rfl

/-- An entry that is read says what is read of it. -/
theorem reads_of_ofJson? {t : Tree} {e : AnswerEntry}
    (h : AnswerEntry.ofJson? t = some e) :
    Reads t e := by
  have htree : AnswerEntry.ofTree? t = some e := by
    unfold AnswerEntry.ofJson? at h
    split at h
    · cases h
    · exact h
  clear h
  unfold AnswerEntry.ofTree? at htree
  split at htree
  · next id value =>
      simp only [Option.bind_eq_bind, Option.bind_eq_some_iff,
        Option.some.injEq] at htree
      obtain ⟨id', hid, ⟨metric, x⟩, hvalue, rfl⟩ := htree
      unfold AnswerEntry.metricOfJson? at hvalue
      split at hvalue
      · next key number =>
          simp only [Option.bind_eq_bind, Option.bind_eq_some_iff,
            Option.some.injEq] at hvalue
          obtain ⟨name, hname, metric', hmetric, x', hx, heq⟩ := hvalue
          cases heq
          have htext : metric.text = name := by
            simpa using List.find?_some hmetric
          exact .tagged id key number id' metric x hid (htext ▸ hname) hx
      · cases hvalue
  · next members =>
      split at htree
      · next id score hfields =>
          simp only [Option.bind_eq_bind, Option.bind_eq_some_iff,
            Option.some.injEq] at htree
          obtain ⟨id', hid, x, hx, rfl⟩ := htree
          exact .scored members id score id' x hfields hid hx
      · cases htree
  · cases htree

/-- An answer that is read says what its message lists. -/
theorem lists_of_ofJson? {t : Tree} {a : SearchAnswer}
    (h : SearchAnswer.ofJson? t = some a) :
    ∃ items, Lists t items ∧ List.Forall₂ Reads items a.entries := by
  unfold SearchAnswer.ofJson? at h
  split at h
  case h_2 => cases h
  next field hfields =>
  obtain ⟨body, hbody, rfl⟩ := Option.map_eq_some_iff.mp h
  obtain ⟨hmember, hread⟩ | ⟨v, hmember, hread⟩ := member_of_fields? hfields
  · rw [hread] at hbody
    cases hbody
    exact ⟨[], .silent hmember, .nil⟩
  · rw [hread, Option.map_eq_some_iff] at hbody
    obtain ⟨b, hb, rfl⟩ := hbody
    unfold AnswerBody.ofJson? at hb
    split at hb
    case h_2 => cases hb
    next knn hknn =>
    obtain ⟨entries, hentries, rfl⟩ := Option.map_eq_some_iff.mp hb
    obtain ⟨hlist, hread⟩ | ⟨w, hlist, hread⟩ := member_of_fields? hknn
    · rw [hread] at hentries
      cases hentries
      exact ⟨[], .empty v hmember hlist, .nil⟩
    · rw [hread, Option.map_eq_some_iff] at hentries
      obtain ⟨es, hes, rfl⟩ := hentries
      unfold Tree.list? at hes
      split at hes
      · next items =>
          refine ⟨items, .entries v items hmember hlist, ?_⟩
          have hall := mapM_eq_some_iff.mp hes
          rw [← List.forall₂_eq_eq_eq, List.forall₂_map_left_iff,
            List.forall₂_map_right_iff] at hall
          exact hall.imp fun t e ht => reads_of_ofJson? ht
      · cases hes

private theorem neighbor?_eq_ok_iff {e : AnswerEntry} {n : Neighbor} :
    e.neighbor? = .ok n ↔ Means e n := by
  constructor
  · intro h
    cases e with
    | scored id s =>
        cases h
        exact .score id s
    | tagged id metric x =>
        cases metric with
        | cosineSimilarity =>
            cases h
            exact .similarity id x
        | cosineDistance =>
            cases h
            exact .distance id x
        | euclideanDistance => cases h
        | hammingDistance => cases h
        | dotProductDistance => cases h
  · intro h
    cases h <;> rfl

/-- An entry fails exactly where its metric is no cosine, and the failure names
the metric. -/
private theorem neighbor?_eq_error_iff {e : AnswerEntry} {metric : Metric} :
    e.neighbor? = .error metric ↔ Incomparable e metric := by
  constructor
  · intro h
    cases e with
    | scored id s => cases h
    | tagged id metric x =>
        cases metric with
        | cosineSimilarity => cases h
        | cosineDistance => cases h
        | euclideanDistance =>
            cases h
            exact .other id _ x nofun nofun
        | hammingDistance =>
            cases h
            exact .other id _ x nofun nofun
        | dotProductDistance =>
            cases h
            exact .other id _ x nofun nofun
  · intro h
    cases h with
    | other id metric x hsimilarity hdistance =>
        cases metric with
        | cosineSimilarity => exact absurd rfl hsimilarity
        | cosineDistance => exact absurd rfl hdistance
        | _ => rfl

-- ==================================================== the main statement

/-- An answer is taken for what its message says. -/
structure Understood (t : Tree) (a : SearchAnswer) : Prop where
  /-- The message lists some entries. -/
  listed : ∃ items, Lists t items
  /-- The answer has what they say, one by one. -/
  entries : ∀ items, Lists t items → List.Forall₂ Reads items a.entries
  /-- Where the message or its list is missing or `null` there are no
  neighbors. -/
  silent : (Member t "RespVectorKNN" none ∨
      ∃ body, Member t "RespVectorKNN" (some body) ∧ Member body "knn" none) →
    a.neighbors? = .ok []
  /-- If all entries can be compared, each of them stands for a neighbor, in
  the same order. -/
  compared : ∀ list, a.neighbors? = .ok list ↔
    List.Forall₂ Means a.entries list
  /-- Otherwise it is the first metric that cannot. -/
  refused : ∀ metric, a.neighbors? = .error metric ↔
    ∃ before e after, a.entries = before ++ e :: after ∧
      (∀ x ∈ before, ∃ n, Means x n) ∧
      Incomparable e metric

private theorem understood_of_ofJson? {t : Tree} {a : SearchAnswer}
    (h : SearchAnswer.ofJson? t = some a) :
    Understood t a := by
  obtain ⟨items, hlists, hreads⟩ := lists_of_ofJson? h
  have hcompared : ∀ list, a.neighbors? = .ok list ↔
      List.Forall₂ Means a.entries list := by
    intro list
    rw [SearchAnswer.neighbors?, mapM_eq_ok_iff]
    simp only [neighbor?_eq_ok_iff]
  refine ⟨⟨items, hlists⟩, fun others hothers => ?_, fun hsilent => ?_,
    hcompared, fun metric => ?_⟩
  · rw [← hlists.unique hothers]
    exact hreads
  · have hnone : Lists t [] := by
      obtain hmember | ⟨body, hmember, hknn⟩ := hsilent
      · exact .silent hmember
      · exact .empty body hmember hknn
    rw [hlists.unique hnone, List.forall₂_nil_left_iff] at hreads
    rw [hcompared, hreads]
    exact .nil
  · rw [SearchAnswer.neighbors?, mapM_eq_error_iff]
    simp only [neighbor?_eq_ok_iff, neighbor?_eq_error_iff]

/-- The text of an answer starts with a brace, so it is not blank, and no
mark is dropped from it. -/
theorem neighborsIn_render (a : SearchAnswer) :
    Http.Client.neighborsIn a.toJson.render
      = match decode? SearchAnswer.ofJson? a.toJson.render with
        | some answer => answer.neighbors?.mapError .incomparable
        | none => .error (.unreadable "not the JSON that was asked for") := by
  obtain ⟨tail, htail⟩ : ∃ tail, a.toJson.render.toList = openBrace :: tail :=
    ⟨_, String.toList_ofList⟩
  have hbody : Http.Client.bodyText a.toJson.render = a.toJson.render := by
    unfold Http.Client.bodyText
    rw [htail]
    rfl
  have hblank : Text.isBlankText a.toJson.render = false := by
    have hbrace : Text.isBlank openBrace = false := by decide
    rw [Text.isBlankText, htail, List.all_cons, hbrace, Bool.false_and]
  unfold Http.Client.neighborsIn Http.Client.decodedOr Http.Client.decoded
  rw [hbody]
  dsimp only
  rw [hblank, if_neg Bool.false_ne_true]
  cases decode? SearchAnswer.ofJson? a.toJson.render with
  | none => rfl
  | some answer =>
      dsimp only
      cases answer.neighbors? <;> rfl

/-- An answer that lists neighbors comes over the wire as it is, or not at
all: with finite scores the client reads the same neighbors, ids, bits and
order, and otherwise it finds the message unreadable. And what it reads of
any text is what that text says. -/
theorem answers_survive :
    (∀ list : List Neighbor, (∀ n ∈ list, n.score.toFloat.isFinite = true) →
      Http.Client.neighborsIn (SearchAnswer.ofNeighbors list).toJson.render
        = .ok list) ∧
    (∀ list : List Neighbor, (∃ n ∈ list, n.score.toFloat.isFinite = false) →
      decode? SearchAnswer.ofJson?
        (SearchAnswer.ofNeighbors list).toJson.render = none ∧
      ∃ reason, Http.Client.neighborsIn
        (SearchAnswer.ofNeighbors list).toJson.render
        = .error (.unreadable reason)) ∧
    (∀ text a, decode? SearchAnswer.ofJson? text = some a →
      ∃ t, Tree.parse? text = some t ∧ Understood t a) := by
  refine ⟨fun list hfinite => ?_, fun list hbad => ?_, fun text a h => ?_⟩
  · rw [neighborsIn_render, read_ofNeighbors hfinite]
    dsimp only
    rw [neighbors?_ofNeighbors hfinite]
    rfl
  · obtain ⟨n, hn, hnot⟩ := hbad
    have hnone := not_read_ofNeighbors hn hnot
    refine ⟨hnone, "not the JSON that was asked for", ?_⟩
    rw [neighborsIn_render, hnone]
  · obtain ⟨t, hparse, ht⟩ := Option.bind_eq_some_iff.mp h
    exact ⟨t, hparse, understood_of_ofJson? ht⟩

end KnnOracle
