/-
Loading a faithful service.

Loading a corpus into a faithful service that has no collection of the
name goes well, and leaves the records of the corpus there, in the order
in which their batches arrived (`ensures_load`). The load is gone through
call by call; what its steps hand on to each other is what the service
holds.
-/
import KnnOracle.Proofs.Comparison.Report
import KnnOracle.Proofs.Corpus.Nearest
import KnnOracle.Proofs.Ranking.Zero
import KnnOracle.Proofs.Service.Ensuring
import KnnOracle.Proofs.Service.Faithful
import KnnOracle.Proofs.Session.Sampling
import KnnOracle.Proofs.Upload.Protocol
import KnnOracle.Session.Load

namespace KnnOracle

open Service

variable {o : Options} {settings : Settings} {s : State}

-- =========================================================== preparation

private theorem ensures_createCollection
    (hfree : s.collections.get? settings.collection = none) :
    (createCollection settings).Ensures o s fun result s' =>
      result = .ok () ∧ s'.Holds settings.collection settings.dimension
        [] := by
  obtain ⟨answer, s', hmeet, hholds⟩ :=
    meet_createCollection (o := o) (r := .ofDimension
    settings.collection (some "Oracle validation corpus") settings.dimension)
      hfree
  exact (Conversation.ensures_ask hmeet).mpr ⟨rfl, hholds⟩

/-- The index is made and the records stay, so this step may be left out or
not. -/
private theorem ensures_createIndex {dimension : Nat} {records : List Record}
    (h : s.Holds settings.collection dimension records) :
    (createIndex settings).Ensures o s fun result s' =>
      result = .ok () ∧ s'.Holds settings.collection dimension records := by
  unfold createIndex
  split
  · obtain ⟨answer, s', hmeet, hholds⟩ :=
      meet_createIndex (o := o) (r := .cosineGraph settings.collection) h
    exact (Conversation.ensures_ask hmeet).mpr ⟨rfl, hholds⟩
  · exact ⟨rfl, h⟩

-- ============================================================= the upload

section upload

variable {name : String} {dimension : Nat} {id : TransactionId}
  {staged : List Record}

/-- A batch of the upload: of one transaction, with records of the right
dimension. -/
def Batch.Belongs (b : Batch) (name : String) (dimension : Nat)
    (id : TransactionId) : Prop :=
  b.collection = name ∧ b.transaction = id ∧
    ∀ r ∈ b.records, r.dimension = dimension

/-- Batches are staged in the order in which they arrive, one behind the
other. -/
theorem stages_afterBatches {batches : List Batch} (hfaithful : o.IsFaithful)
    (h : s.Stages name dimension id staged)
    (hbatches : ∀ b ∈ batches, b.Belongs name dimension id) :
    (afterBatches o s batches).Stages name dimension id
      (staged ++ batches.flatMap Batch.records) := by
  induction batches generalizing s staged with
  | nil =>
      rw [List.flatMap_nil, List.append_nil]
      exact h
  | cons batch rest ih =>
      obtain ⟨⟨rfl, rfl, hfit⟩, hrest⟩ := List.forall_mem_cons.mp hbatches
      obtain ⟨s', hmeet, hs'⟩ := meet_upsert hfaithful h hfit
      have hnext := ih hs' hrest
      rw [List.append_assoc] at hnext
      show (afterBatches o (meet o s (.upsert batch)).2 rest).Stages _ _ _ _
      rw [hmeet]
      exact hnext

/-- A faithful service accepts any number of batches that belong to the
collection, one after the other. -/
private theorem accepts_batches {batches : List Batch}
    (hfaithful : o.IsFaithful) (h : s.Stages name dimension id staged)
    (hbatches : ∀ b ∈ batches, b.Belongs name dimension id) :
    Accepts o s batches := by
  intro arrived batch hsub
  have hall : ∀ b ∈ arrived ++ [batch], b.Belongs name dimension id :=
    fun b hb =>
    hbatches b (hsub.subset hb)
  obtain ⟨harrived, hbatch⟩ := List.forall_mem_append.mp hall
  have hstages := stages_afterBatches hfaithful h harrived
  obtain ⟨rfl, rfl, hfit⟩ := hbatch batch (List.mem_singleton_self batch)
  obtain ⟨s', hmeet, -⟩ := meet_upsert hfaithful hstages hfit
  rw [hmeet]

/-- The batches of an upload belong to its collection and its transaction, in
the dimension of the corpus. -/
private theorem belongs_of_mem_batches {records : List Record} {size : Nat}
    {batch : Batch} (hfit : ∀ r ∈ records, r.dimension = dimension)
    (h : batch ∈ Upload.batches name id records size) :
    batch.Belongs name dimension id := by
  obtain ⟨piece, hpiece, rfl⟩ := List.mem_map.mp h
  refine ⟨rfl, rfl, fun r hr => hfit r ?_⟩
  rw [← flatten_chunks size records]
  exact List.mem_flatten.mpr ⟨piece, hpiece, hr⟩

end upload

/-- The upload of records that fit and have different ids goes well: every
batch is accepted and so is the commit. -/
theorem ensures_upload {records : List Record} {options : Upload.Options}
    {name : String} {dimension : Nat} (hfaithful : o.IsFaithful)
    (h : s.Holds name dimension []) (hbatch : 1 ≤ options.batchSize)
    (hworkers : 1 ≤ options.workers)
    (hfit : ∀ r ∈ records, r.dimension = dimension)
    (hnodup : (records.map Record.id).Nodup) :
    (Upload.start name records options).Ensures o s fun result s' =>
      ∃ summary stored, result = .ok summary ∧ stored.Perm records ∧
        s'.Holds name dimension stored := by
  obtain ⟨id, s', hmeet, hstages⟩ := meet_createTransaction (o := o) h
  unfold Upload.start
  rw [if_neg (by omega)]
  refine (Conversation.ensures_ask hmeet).mpr ?_
  have hbatches : ∀ b ∈ Upload.batches name id records options.batchSize,
      b.Belongs name dimension id := fun b => belongs_of_mem_batches hfit
  refine ⟨accepts_batches hfaithful hstages hbatches,
    fun arrived harrived => ?_⟩
  have hstaged := stages_afterBatches hfaithful hstages fun b hb =>
    hbatches b (harrived.mem_iff.mp hb)
  rw [List.nil_append] at hstaged
  have hperm : (arrived.flatMap Batch.records).Perm records := by
    have hflat := (harrived.map Batch.records).flatten
    rwa [Upload.flatten_batches] at hflat
  obtain ⟨s'', hcommit, hholds⟩ :=
    meet_commit (o := o) hstaged ((hperm.map Record.id).nodup_iff.mpr hnodup)
  refine Conversation.ensures_noteAll.mpr
    ((Conversation.ensures_ask hcommit).mpr ?_)
  exact ⟨_, _, rfl, hperm, hholds⟩

-- ========================================================== reading back

/-- A vector has no drift from what it is after adding zero, so a record is
read back even under a tolerance of zero. -/
theorem drift_addZero {values : List Float}
    (h : ∀ x ∈ values, x.isFinite = true) :
    drift values (values.map (· + 0.0)) = 0.0 := by
  unfold drift
  induction values with
  | nil => rfl
  | cons x rest ih =>
      obtain ⟨hx, hrest⟩ := List.forall_mem_cons.mp h
      have hzero : larger 0.0 0.0 = 0.0 := by decide
      rw [List.map_cons, List.zip_cons_cons, List.foldl_cons,
        sub_add_zero_abs hx, hzero]
      exact ih hrest

private theorem Record.isFinite_of_mem {r : Record}
    (h : r.firstNonFinite? = none) :
    ∀ x ∈ r.values, x.isFinite = true := by
  intro x hx
  have hnot := List.findIdx?_eq_none_iff.mp h x hx
  simpa using hnot

/-- A record that was stored is read back under any tolerance that is a
limit. -/
theorem checkStored_addZero {r : Record}
    (htolerance : settings.comparator.HasTolerance)
    (hfinite : r.firstNonFinite? = none) :
    checkStored settings.tolerance r ⟨r.id, r.values.map (· + 0.0)⟩
      = .ok () := by
  have hdimension : (⟨r.id, r.values.map (· + 0.0)⟩ : Record).dimension
      = r.dimension :=
    List.length_map ..
  have hwithin : ¬0.0 > settings.tolerance := htolerance.2
  unfold checkStored
  rw [if_neg (not_not_intro hdimension)]
  dsimp only
  rw [drift_addZero (Record.isFinite_of_mem hfinite), if_neg hwithin]

/-- What is stored is read back, and that changes nothing. -/
theorem ensures_readBack {corpus : Corpus} {dimension : Nat}
    {stored list : List Record} (hfaithful : o.IsFaithful)
    (htolerance : settings.comparator.HasTolerance)
    (h : s.Holds settings.collection dimension stored)
    (hstored : stored.Perm corpus.records)
    (hlist : ∀ r ∈ list, r ∈ corpus.records) :
    (readBack settings list).Ensures o s fun result s' => result = .ok () ∧
      s' = s := by
  induction list with
  | nil => exact ⟨rfl, rfl⟩
  | cons r rest ih =>
      obtain ⟨hr, hrest⟩ := List.forall_mem_cons.mp hlist
      have hfetch :=
        meet_fetch hfaithful h
          ((hstored.map Record.id).nodup_iff.mpr corpus.nodup)
        (hstored.mem_iff.mpr hr)
      refine (Conversation.ensures_ask hfetch).mpr ?_
      dsimp only
      rw [checkStored_addZero htolerance (corpus.finite r hr)]
      exact ih hrest

-- ================================================================ loading

/-- A faithful service holds the corpus after its upload, in the order in which
the batches happened to arrive. -/
private theorem ensures_uploadCorpus {corpus : Corpus}
    (hfaithful : o.IsFaithful)
    (h : s.Holds settings.collection corpus.dimension [])
    (hbatch : 1 ≤ settings.batchSize) (hworkers : 1 ≤ settings.workers) :
    (uploadCorpus settings corpus).Ensures o s fun result s' =>
      ∃ summary stored, result = .ok summary ∧ stored.Perm corpus.records ∧
        s'.Holds settings.collection corpus.dimension stored := by
  refine Conversation.ensures_bind.mpr
    ((ensures_upload hfaithful h hbatch hworkers corpus.dimension_eq
      corpus.nodup).imp ?_)
  rintro result s' ⟨summary, stored, rfl, hstored, hholds⟩
  exact ⟨summary, stored, rfl, hstored, hholds⟩

/-- A corpus of the dimension of the run is loaded into a faithful service
that has no collection of the name. -/
theorem ensures_loadCorpus {corpus : Corpus} (hfaithful : o.IsFaithful)
    (hfree : s.collections.get? settings.collection = none)
    (hbatch : 1 ≤ settings.batchSize) (hworkers : 1 ≤ settings.workers)
    (htolerance : settings.comparator.HasTolerance)
    (hdimension : corpus.dimension = settings.dimension) :
    (loadCorpus settings corpus).Ensures o s fun result s' =>
      ∃ loaded stored, result = .ok loaded ∧ loaded.corpus = corpus ∧
        stored.Perm corpus.records ∧
          s'.Holds settings.collection settings.dimension stored := by
  refine Conversation.ensures_andThen ((ensures_createCollection hfree).imp ?_)
  rintro result s₁ ⟨rfl, hcreated⟩
  refine ⟨(), rfl, Conversation.ensures_andThen
    ((ensures_createIndex hcreated).imp ?_)⟩
  rintro result s₂ ⟨rfl, hindexed⟩
  rw [← hdimension] at hindexed ⊢
  refine ⟨(), rfl, Conversation.ensures_andThen
    ((ensures_uploadCorpus hfaithful hindexed hbatch hworkers).imp ?_)⟩
  rintro result s₃ ⟨summary, stored, rfl, hstored, hholds⟩
  refine ⟨summary, rfl, Conversation.ensures_andThen
    ((ensures_readBack hfaithful htolerance hholds hstored fun r =>
      mem_of_mem_sample).imp ?_)⟩
  rintro result s₄ ⟨rfl, rfl⟩
  exact ⟨(), rfl, ⟨corpus, summary⟩, stored, rfl, rfl, hstored, hholds⟩

/-- The corpus of a run has the dimension of the run, wherever it comes
from. -/
theorem Settings.dimension_corpus {read : Storage.Reader} {corpus : Corpus}
    (h : settings.corpus read = .ok corpus) :
    corpus.dimension = settings.dimension := by
  unfold Settings.corpus at h
  split at h
  · cases h
  · split at h
    · next hmake =>
        cases h
        exact (Corpus.records_of_make? hmake).2
    · cases h

/-- A load into a faithful service without the collection succeeds, and the
service holds the corpus then. That the loaded records come back within any
tolerance is part of it. -/
theorem ensures_load {read : Storage.Reader} {corpus : Corpus}
    (hfaithful : o.IsFaithful)
    (hfree : s.collections.get? settings.collection = none)
    (hbatch : 1 ≤ settings.batchSize) (hworkers : 1 ≤ settings.workers)
    (htolerance : settings.comparator.HasTolerance)
    (hcorpus : settings.corpus read = .ok corpus) :
    (load settings read).Ensures o s fun result s' =>
      ∃ loaded stored, result = .ok loaded ∧ loaded.corpus = corpus ∧
        stored.Perm corpus.records ∧
          s'.Holds settings.collection settings.dimension stored := by
  unfold load
  rw [hcorpus]
  exact ensures_loadCorpus hfaithful hfree hbatch hworkers htolerance
    (Settings.dimension_corpus hcorpus)

end KnnOracle
