/-
Validating a faithful service.

A faithful service that has no collection of the name is loaded, and then
passes as exact every query that the scores of the corpus decide
(`load_settles`), whatever the order is in which the batches and the
searches reach it. It ranks the records in the order in which they
arrived and the oracle ranks them in the order of the corpus; where the
scores decide a query the best `k` are the same neighbors on both sides,
and a judgement asks for no more.
-/
import KnnOracle.Proofs.Service.Settling
import KnnOracle.Proofs.Session.Loading
import KnnOracle.Proofs.Validation.Judging
import KnnOracle.Session.Validate

namespace KnnOracle

open Service

variable {o : Options} {s : State}

/-- The outcomes of queries, each of which passed if the scores of the
corpus decide it. -/
def Corpus.Passed (corpus : Corpus) (k : Nat) (queries : List Record)
    (outcomes : List Outcome) : Prop :=
  List.Forall₂
    (fun query outcome => outcome.query = query.id ∧
      (corpus.Decides query k → outcome.passed = true))
    queries outcomes

/-- A faithful service that holds the records of a corpus passes all queries on
it, in exact mode. -/
private theorem ensures_validateAll {v : Validator} {dimension : Nat}
    {stored : List Record} {queries : List Record} (hfaithful : o.IsFaithful)
    (htolerance : v.comparator.HasTolerance) (hrecall : v.comparator.HasRecall)
    (hmode : v.comparator.mode = .exact)
    (hholds : s.Holds v.collection dimension stored)
    (hstored : stored.Perm v.corpus.records) :
    (v.validateAll queries).Ensures o s fun outcomes _ =>
      v.corpus.Passed v.k queries outcomes := by
  refine Conversation.ensures_noteAll.mpr ?_
  show v.corpus.Passed v.k queries
    (List.zipWith v.outcome queries (answers o s (queries.map v.searchOf)))
  unfold Corpus.Passed answers
  rw [List.map_map, List.zipWith_map_right, List.zipWith_self,
    List.forall₂_map_right_iff, List.forall₂_same]
  intro query _
  exact ⟨rfl, judge_passed hfaithful htolerance hrecall hmode hholds hstored⟩

/-- Validating a corpus with a faithful service that holds its records returns
outcomes that have all passed. -/
private theorem ensures_validateCorpus {settings : Settings} {corpus : Corpus}
    {dimension : Nat} {stored queries : List Record} (hfaithful : o.IsFaithful)
    (htolerance : settings.comparator.HasTolerance)
    (hrecall : settings.comparator.HasRecall) (hmode : settings.mode = .exact)
    (hholds : s.Holds settings.collection dimension stored)
    (hstored : stored.Perm corpus.records)
    (hqueries : buildQueries settings corpus = .ok queries) :
    (validateCorpus settings corpus).Ensures o s fun result _ =>
      ∃ validated, result = .ok validated ∧ validated.corpus = corpus ∧
        corpus.Passed settings.k queries validated.outcomes := by
  unfold validateCorpus
  rw [hqueries]
  refine Conversation.ensures_bind.mpr (Conversation.Ensures.imp
    (ensures_validateAll (v :=
      settings.validator corpus) hfaithful htolerance hrecall hmode
      hholds hstored) ?_)
  intro outcomes _ hpassed
  exact ⟨⟨corpus, outcomes⟩, rfl, rfl, hpassed⟩

/-- A faithful service that has no collection of the name is loaded with a
valid corpus. Held to be exact under limits that are limits, it is then
never failed on a query that the scores of the corpus decide. -/
theorem load_settles {settings : Settings} {read : Storage.Reader}
    {corpus : Corpus} (hfaithful : o.IsFaithful)
    (hfree : s.collections.get? settings.collection = none)
    (hbatch : 1 ≤ settings.batchSize) (hworkers : 1 ≤ settings.workers)
    (htolerance : settings.comparator.HasTolerance)
    (hrecall : settings.comparator.HasRecall) (hmode : settings.mode = .exact)
    (hcorpus : settings.corpus read = .ok corpus) :
    (load settings read).Settles o s fun result s' =>
      ∃ loaded, result = .ok loaded ∧ loaded.corpus = corpus ∧
        ∀ queries, buildQueries settings corpus = .ok queries →
          (validateCorpus settings loaded.corpus).Settles o s' fun result _ =>
            ∃ validated, result = .ok validated ∧ validated.corpus = corpus ∧
              corpus.Passed settings.k queries validated.outcomes := by
  refine Conversation.settles_of_ensures
    ((ensures_load hfaithful hfree hbatch hworkers htolerance hcorpus).imp ?_)
  rintro result s' ⟨loaded, stored, rfl, rfl, hstored, hholds⟩
  refine ⟨loaded, rfl, rfl,
    fun queries hqueries => Conversation.settles_of_ensures ?_⟩
  exact ensures_validateCorpus hfaithful htolerance hrecall hmode hholds
    hstored hqueries

-- ------------------------------------------------------------ an instance

/-- Three directions in the plane. -/
def threeVectors : Corpus :=
  { records := [⟨⟨7⟩, [1.0, 0.0]⟩, ⟨⟨9⟩, [1.0, 1.0]⟩, ⟨⟨4⟩, [0.0, 1.0]⟩]
    dimension := 2
    dimension_eq := by decide
    finite := by decide
    nodup := by decide }

/-- A reader for whom every file is a table of the three. -/
def threeReader : Storage.Reader := fun _ =>
  .ok (.table ⟨[("id", .integers false 64 [some 7, some 9, some 4]),
    ("emb", .lists .list .float64
      [some [some 1.0, some 0.0], some [some 1.0, some 1.0],
        some [some 0.0, some 1.0]])]⟩)

/-- A run with the three, in two batches. -/
def threeSettings : Settings :=
  { dimension := 2
    dataset := some "three.parquet"
    batchSize := 2
    workers := 2
    k := 2
    mode := .exact
    queries := 1 }

theorem corpus_threeSettings :
    threeSettings.corpus threeReader = .ok threeVectors := by
  have hformat : Dataset.Format.ofExtension?
      (Storage.extension "three.parquet")
      = some .columns := by decide
  have hload : Dataset.load threeReader "three.parquet" 2
      = .ok threeVectors.records := by
    unfold Dataset.load
    rw [hformat]
    rfl
  have hrecords : threeSettings.corpusRecords threeReader
      = .ok threeVectors.records := by
    unfold Settings.corpusRecords threeSettings
    dsimp only
    rw [hload]
  have hmake : Corpus.make? threeSettings.dimension threeVectors.records
      = .ok threeVectors :=
    Corpus.make?_records threeVectors
  unfold Settings.corpus
  rw [hrecords]
  dsimp only
  rw [hmake]

/-- The cut behind the second of three different scores decides. -/
theorem decides_threeVectors : threeVectors.Decides ⟨⟨1⟩, [1.0, 0.0]⟩ 2 := by
  let scored : List Neighbor :=
    [⟨⟨7⟩, ⟨0x3FF0000000000000⟩⟩, ⟨⟨9⟩, ⟨0x3FE6A09E667F3BCC⟩⟩, ⟨⟨4⟩, ⟨0⟩⟩]
  have hquery : threeVectors.admit? ⟨⟨1⟩, [1.0, 0.0]⟩ = .ok () :=
    eq_ok_of_toOption (by decide +kernel)
  have hscored : scoreAll cosine [1.0, 0.0] threeVectors.records
      = .ok scored :=
    eq_ok_of_toOption (by decide +kernel)
  have hrank : Neighbor.rank scored = scored :=
    List.mergeSort_of_pairwise (by decide)
  refine ⟨scored, ?_, by decide, .inr (.inr ⟨_, _, rfl, rfl, by decide⟩)⟩
  rw [Corpus.search, Corpus.searchWith_of_scored hquery hscored, hrank]
  rfl

/-- The three are loaded and validated with a query, and there are queries
that their scores decide. -/
theorem load_settles_threeVectors :
    threeVectors.Decides ⟨⟨1⟩, [1.0, 0.0]⟩ 2 ∧
    (∃ query, buildQueries threeSettings threeVectors = .ok [query]) ∧
    (load threeSettings threeReader).Settles {} .initial fun result s' =>
      ∃ loaded, result = .ok loaded ∧ loaded.corpus = threeVectors ∧
        ∀ queries, buildQueries threeSettings threeVectors = .ok queries →
          (validateCorpus threeSettings loaded.corpus).Settles {} s'
            fun result _ =>
            ∃ validated, result = .ok validated ∧
              validated.corpus = threeVectors ∧
              threeVectors.Passed 2 queries validated.outcomes := by
  refine ⟨decides_threeVectors, ?_, ?_⟩
  · have hone : (buildQueries threeSettings threeVectors).toOption.map
        List.length = some 1 := by
      decide +kernel
    cases hqueries : buildQueries threeSettings threeVectors with
    | error e =>
        rw [hqueries] at hone
        cases hone
    | ok queries =>
        rw [hqueries] at hone
        obtain ⟨query, rfl⟩ := List.length_eq_one_iff.mp (Option.some.inj hone)
        exact ⟨query, rfl⟩
  · exact load_settles ⟨rfl, rfl, rfl, rfl⟩ rfl (by decide) (by decide)
      (by decide +kernel)
      (by decide +kernel) rfl corpus_threeSettings

end KnnOracle
