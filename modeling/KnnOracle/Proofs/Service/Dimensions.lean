/-
What fits a collection.

A batch is admitted only if its records have the dimension of its
collection. A commit looks at no dimension, and a transaction outlives its
collection: if the collection is made anew with another dimension while
records wait in an open transaction of that name, the transaction is
recast, and its commit puts records into the collection that do not fit
it. `Steady.fits` says that this is the only way: as long as no
transaction is recast, all that searches see fits, and the request that
recasts one makes it possible at once that something does not.

# The invariant

The records that are staged in an open transaction are all of one
dimension, and if its collection is there, the dimension is the
collection's (`State.Matched`). The two handlers that look at dimensions
keep this, the creation of a collection unless it recasts a transaction.
-/
import KnnOracle.Proofs.Service.Requests
import KnnOracle.Proofs.Similarity

namespace KnnOracle

namespace Service

open Http

-- =============================================================== searches

/-- Records of the query's dimension are scored, or one of the vectors has no
direction. A mismatch of lengths cannot be the reason then. -/
theorem scoreRecords_error {bias : Float} {query : List Float}
    {records : List Record} {e : Fault}
    (hfit : ∀ r ∈ records, r.dimension = query.length)
    (h : scoreRecords bias query records = .error e) :
    ∃ side, e = .degenerate side := by
  induction records with
  | nil => cases h
  | cons r rest ih =>
      have hlength : query.length = r.values.length :=
        (hfit r (List.mem_cons_self ..)).symm
      unfold scoreRecords at h
      split at h
      · next cause hsimilarity =>
          cases h
          exact degenerate_of_similarity hlength hsimilarity
      · split at h
        · next cause hrest =>
            cases h
            exact ih (fun x hx => hfit x (List.mem_cons_of_mem _ hx)) hrest
        · cases h

-- ============================================================== fitting

/-- The records of every collection have its dimension. -/
def State.Fits (s : State) : Prop :=
  ∀ name c, s.collections.get? name = some c →
    ∀ r ∈ c.committed, r.dimension = c.dimension

/-- What is staged in an open transaction is of one dimension, and if the
collection is there, of the collection's. -/
structure State.Matched (s : State) : Prop where
  fits : s.Fits
  staged : ∀ collection id t, openTransaction s collection id = .ok t →
    ∃ d, (∀ r ∈ t.staged, r.dimension = d) ∧
      ∀ c, s.collections.get? collection = some c → c.dimension = d

/-- A call makes a collection anew, with another dimension than a record
has that waits in an open transaction of that name. -/
def Recasts (s : State) (call : Call) : Prop :=
  ∃ request id t, call = .createCollection request ∧
    s.collections.get? request.name = none ∧
    openTransaction s request.name id = .ok t ∧
    ∃ r ∈ t.staged, r.dimension ≠ request.dense.dimension

/-- To keep the records of every collection to its dimension, only the
collection that is put has to be looked at. -/
theorem State.Fits.put {s after : State} {key : String} {c : Collection}
    (h : s.Fits) (hafter : after.collections = s.collections.put key c)
    (hc : ∀ r ∈ c.committed, r.dimension = c.dimension) : after.Fits := by
  intro name c' hget
  rw [hafter, Dictionary.get?_put] at hget
  split at hget
  · cases hget
    exact hc
  · exact h name c' hget

-- ======================================================== the two guards

/-- A collection is made only where there is none, so a call that makes one has
an unused name. -/
theorem createCollection_eq_ok {s s' : State} {r : CollectionRequest}
    {answer : Json.Value} (h : createCollection s r = (.ok answer, s')) :
    s.collections.get? r.name = none := by
  unfold createCollection Dictionary.contains at h
  split at h
  · cases h
  · next hfree => exact Option.not_isSome_iff_eq_none.mp hfree

/-- Under a free name a collection is made, empty and with the dimension that
was asked for. -/
private theorem createCollection_of_free {s : State} {r : CollectionRequest}
    (h : s.collections.get? r.name = none) :
    (createCollection s r).2 =
      { s with
        collections :=
          s.collections.put r.name
            ⟨r.dense.dimension, [], r.dense.autoCreateIndex⟩ } := by
  unfold createCollection Dictionary.contains
  rw [h]
  rfl

/-- A batch is taken only if its records fit the collection. This is the check
that a commit leaves out. -/
theorem upsert_eq_ok {o : Options} {s s' : State} {b : Batch}
    (h : upsert o s b = (.ok (), s')) :
    ∃ c, s.collections.get? b.collection = some c ∧
      ∀ r ∈ b.records, r.dimension = c.dimension := by
  unfold upsert at h
  dsimp only at h
  split at h
  · cases h
  · next c hc =>
      refine ⟨c, hc, fun r hr => ?_⟩
      cases hfind : b.records.find? fun r => r.dimension ≠ c.dimension with
      | some bad =>
          unfold admitBatch at h
          rw [hfind] at h
          cases h
      | none => exact by simpa using List.find?_eq_none.mp hfind r hr

-- ========================================================= the step lemma

namespace State.Matched

variable {o : Options} {s : State}

/-- Data that is as it was matches as it did. -/
theorem of_sameData {after : State} (h : s.Matched)
    (hsame : s.SameData after) :
    after.Matched := by
  obtain ⟨hcollections, htransactions, -⟩ := hsame
  constructor
  · intro name c hc
    rw [hcollections] at hc
    exact h.fits name c hc
  · intro collection id t hopen
    rw [openTransaction_congr htransactions] at hopen
    rw [hcollections]
    exact h.staged collection id t hopen

/-- Where collections stay, a transaction may be put that fits its own. -/
theorem put_transaction {after : State} {key : String} {t' : Transaction}
    (h : s.Matched) (hcollections : after.collections = s.collections)
    (htransactions : after.transactions = s.transactions.put key t')
    (hstaged : ∃ d, (∀ r ∈ t'.staged, r.dimension = d) ∧
      ∀ c, s.collections.get? t'.collection = some c → c.dimension = d) :
    after.Matched := by
  constructor
  · intro name c hc
    rw [hcollections] at hc
    exact h.fits name c hc
  · intro collection id t hopen
    rw [hcollections]
    rcases openTransaction_of_put htransactions hopen with ⟨rfl, rfl, -⟩ |
      hbefore
    · exact hstaged
    · exact h.staged collection id t hbefore

/-- Where transactions stay, a collection may be given other records of its
dimension. -/
theorem put_collection {after : State} {key : String} {c c' : Collection}
    (h : s.Matched) (hc : s.collections.get? key = some c)
    (hcollections : after.collections = s.collections.put key c')
    (htransactions : after.transactions = s.transactions)
    (hdimension : c'.dimension = c.dimension)
    (hcommitted : ∀ r ∈ c'.committed, r.dimension = c.dimension) :
    after.Matched := by
  refine ⟨h.fits.put hcollections (by rwa [hdimension]),
    fun collection id t hopen => ?_⟩
  rw [openTransaction_congr htransactions] at hopen
  obtain ⟨d, hd, hexisting⟩ := h.staged collection id t hopen
  refine ⟨d, hd, fun x hx => ?_⟩
  rw [hcollections, Dictionary.get?_put] at hx
  split at hx
  · next hname =>
      cases hx
      exact hdimension.trans (hexisting c (hname ▸ hc))
  · exact hexisting x hx

theorem empty_staged (s : State) (name : String) :
    ∃ d, (∀ r ∈ ([] : List Record), r.dimension = d) ∧
      ∀ c, s.collections.get? name = some c → c.dimension = d := by
  cases hc : s.collections.get? name with
  | none => exact ⟨0, nofun, nofun⟩
  | some c =>
      refine ⟨c.dimension, nofun, fun c' hc' => ?_⟩
      cases hc'
      rfl

/-- Every call that recasts no transaction keeps what matches matching. The
call that makes a collection is the only one for which the hypothesis is
needed. -/
theorem step (h : s.Matched) {call : Call} (hcall : ¬Recasts s call) :
    (step o s call).2.Matched := by
  cases call with
  | createCollection r =>
      show (createCollection s r).2.Matched
      rcases createCollection_cases s r with ⟨e, heq⟩ | ⟨answer, heq⟩
      · rw [heq]
        exact h
      · have hfree := createCollection_eq_ok heq
        rw [heq]
        refine ⟨h.fits.put rfl nofun, fun collection id t hopen => ?_⟩
        have hopen : openTransaction s collection id = .ok t := hopen
        obtain ⟨d, hd, hdimension⟩ := h.staged collection id t hopen
        by_cases hname : r.name = collection
        · -- a record of another dimension would have been recast
          subst hname
          refine ⟨r.dense.dimension, fun x hx => ?_, fun c hc => ?_⟩
          · by_contra hne
            exact hcall ⟨r, id, t, rfl, hfree, hopen, x, hx, hne⟩
          · rw [Dictionary.get?_put, if_pos rfl] at hc
            cases hc
            rfl
        · refine ⟨d, hd, fun c hc => ?_⟩
          rw [Dictionary.get?_put, if_neg hname] at hc
          exact hdimension c hc
  | deleteCollection name =>
      show (deleteCollection s name).2.Matched
      rcases deleteCollection_cases s name with ⟨e, heq⟩ | heq
      · rw [heq]
        exact h
      · rw [heq]
        refine ⟨fun other c hc => h.fits other c (Dictionary.get?_of_erase hc),
          fun collection id t hopen => ?_⟩
        obtain ⟨d, hd, hdimension⟩ := h.staged collection id t hopen
        exact ⟨d, hd, fun c hc => hdimension c (Dictionary.get?_of_erase hc)⟩
  | createIndex r =>
      show (createIndex s r).2.Matched
      rcases createIndex_cases s r with ⟨e, heq⟩ | ⟨answer, c, hc, heq⟩
      · rw [heq]
        exact h
      · rw [heq]
        exact h.put_collection hc rfl rfl rfl (h.fits r.collection c hc)
  | createTransaction collection =>
      show (createTransaction s collection).2.Matched
      rcases createTransaction_cases s collection with ⟨e, heq⟩ | ⟨c, -, heq⟩
      · rw [heq]
        exact h
      · rw [heq]
        exact h.put_transaction rfl rfl (empty_staged s collection)
  | upsert batch =>
      show (upsert o s batch).2.Matched
      rcases upsert_cases o s batch with ⟨e, heq⟩ | ⟨t, hopen, heq⟩
      · rw [heq]
        exact h.of_sameData ⟨rfl, rfl, rfl⟩
      · obtain ⟨c, hc, hrecords⟩ := upsert_eq_ok heq
        obtain ⟨d, hd, hdimension⟩ := h.staged batch.collection _ t hopen
        rw [heq]
        refine h.put_transaction rfl rfl ⟨d, fun r hr => ?_, ?_⟩
        · rcases List.mem_append.mp hr with hr | hr
          · exact hd r hr
          · exact (hrecords r hr).trans (hdimension c hc)
        · intro c' hc'
          exact hdimension c' ((openTransaction_eq_ok.mp hopen).2.1 ▸ hc')
  | commit collection id =>
      show (commit s collection id).2.Matched
      rcases commit_cases s collection id with ⟨e, -, heq⟩ |
        ⟨t, hopen, ⟨-, heq⟩ | ⟨c, hc, heq⟩⟩
      · rw [heq]
        exact h
      · rw [heq]
        exact h.put_transaction rfl rfl (empty_staged s t.collection)
      · obtain ⟨d, hd, hdimension⟩ := h.staged collection _ t hopen
        have hclosed : { s with
            transactions :=
              s.transactions.put id.text { t with
                staged := [], status := .committed }
            : State }.Matched :=
              h.put_transaction rfl rfl (empty_staged s t.collection)
        rw [heq]
        refine hclosed.put_collection hc rfl rfl rfl fun r hr => ?_
        rcases mem_placeAll hr with hr | hr
        · exact (hd r hr).trans (hdimension c hc).symm
        · exact h.fits collection c hc r hr
  | abort collection id =>
      show (abort s collection id).2.Matched
      rcases abort_cases s collection id with ⟨e, -, heq⟩ | ⟨t, hopen, heq⟩
      · rw [heq]
        exact h
      · rw [heq]
        exact h.put_transaction rfl rfl (empty_staged s t.collection)
  | getCollection name =>
      rw [step_of_writes?_eq_none o s rfl]
      exact h
  | fetch r =>
      rw [step_of_writes?_eq_none o s rfl]
      exact h
  | search r =>
      rw [step_of_writes?_eq_none o s rfl]
      exact h

end State.Matched

-- ======================================================= steady histories

/-- The states after calls that recast no transaction. -/
inductive Steady (o : Options) : State → Prop where
  | initial : Steady o .initial
  | step {s : State} (h : Steady o s) (call : Call) (hcall : ¬Recasts s call) :
      Steady o (step o s call).2

/-- In a steady state the staged records fit the collections that they will be
committed to. This is the half of the invariant that a commit uses. -/
theorem Steady.matched {o : Options} {s : State} (h : Steady o s) :
    s.Matched := by
  induction h with
  | initial => exact ⟨nofun, nofun⟩
  | step _ call hcall ih => exact ih.step hcall

/-- A request keeps a service steady unless it makes anew a collection with
open transactions, in another dimension. -/
theorem Steady.serve {o : Options} {s : State} {r : Request} (h : Steady o s)
    (hr : ∀ call, callIn? o r = some call → ¬Recasts s call) :
    Steady o (serve o r s).2 := by
  cases hcall : callIn? o r with
  | none =>
      obtain ⟨response, heq, -⟩ := serve_of_none s hcall
      rw [heq]
      exact h
  | some call =>
      rw [serve_snd hcall]
      exact h.step call (hr call hcall)

/-- The commit of a transaction that was recast puts records into its
collection that do not fit it. -/
theorem not_fits_of_recasts {o : Options} {s : State} {call : Call}
    (h : s.Matched) (hcall : Recasts s call) :
    ∃ collection id,
      ¬(Service.step o (Service.step o s call).2
        (.commit collection id)).2.Fits := by
  obtain ⟨r, id, t, rfl, hfree, hopen, bad, hbad, hne⟩ := hcall
  obtain ⟨d, hd, -⟩ := h.staged r.name id t hopen
  refine ⟨r.name, ⟨id⟩, fun hfits => hne ?_⟩
  have hmade : (Service.step o s (.createCollection r)).2 = { s with
      collections :=
        s.collections.put r.name
          ⟨r.dense.dimension, [], r.dense.autoCreateIndex⟩ } :=
    createCollection_of_free hfree
  rw [hmade] at hfits
  set made : State := { s with
    collections :=
      s.collections.put r.name
        ⟨r.dense.dimension, [], r.dense.autoCreateIndex⟩ }
  have hget : made.collections.get? r.name
      = some ⟨r.dense.dimension, [], r.dense.autoCreateIndex⟩ :=
    Dictionary.get?_put_self ..
  have hstays : openTransaction made r.name id = .ok t := hopen
  -- the record staged last is in the collection after the commit
  obtain ⟨before, last, hlast⟩ : ∃ before last, t.staged = before ++ [last] :=
    ⟨_, _, (List.dropLast_append_getLast (List.ne_nil_of_mem hbad)).symm⟩
  rcases commit_cases made r.name ⟨id⟩ with
    ⟨e, hclosed, -⟩ | ⟨t', hopen', ⟨hgone, -⟩ | ⟨c, hc, heq⟩⟩
  · rw [hstays] at hclosed
    cases hclosed
  · rw [hget] at hgone
    cases hgone
  · rw [hget] at hc
    cases hc
    rw [hstays] at hopen'
    cases hopen'
    have hfits : (commit made r.name ⟨id⟩).2.Fits := hfits
    rw [heq] at hfits
    have hplaced := hfits r.name _ (Dictionary.get?_put_self ..) last
      (by rw [hlast]; exact mem_placeAll_concat before _ last)
    have hsame :=
      (hd bad hbad).trans
        (hd last (by rw [hlast]; exact List.mem_concat_self)).symm
    exact hsame.trans hplaced

/-- What holds of a service as long as no transaction was recast. -/
structure Fitting (o : Options) (s : State) : Prop where
  /-- What searches see fits. -/
  fits : s.Fits
  /-- A search with a vector that fits is answered, unless a vector has no
  direction. -/
  searched : ∀ r q c, callIn? o r = some (.search q) →
    s.collections.get? q.collection = some c → q.vector.length = c.dimension →
    (serve o r s).1.isSuccess = true ∨
    ∃ side, (serve o r s).1 = textResponse 400 (Fault.degenerate side).message
  /-- A call recasts a transaction exactly if a commit after it can put into
  a collection what does not fit it. -/
  recast : ∀ call, Recasts s call ↔
    ∃ collection id,
      ¬(Service.step o (Service.step o s call).2
        (.commit collection id)).2.Fits

/-- Where all records fit, a query of the right length finds its neighbors or
is refused for a degenerate vector. It is never refused for a record that does
not fit. -/
private theorem searched_of_fits {o : Options} {s : State} {r : Request}
    {q : SearchRequest} {c : Collection} (h : s.Fits)
    (hcall : callIn? o r = some (.search q))
    (hc : s.collections.get? q.collection = some c)
    (hlength : q.vector.length = c.dimension) :
    (serve o r s).1.isSuccess = true ∨
    ∃ side, (serve o r s).1 = textResponse 400
      (Fault.degenerate side).message := by
  have hfit : ∀ x ∈ c.committed, x.dimension = q.vector.length := fun x hx =>
    (h q.collection c hc x hx).trans hlength.symm
  have hsearch : step o s (.search q) = search o s q := rfl
  unfold search at hsearch
  rw [hc] at hsearch
  dsimp only at hsearch
  cases hscored : scoreRecords o.scoreBias q.vector c.committed with
  | ok scored =>
      rw [hscored] at hsearch
      exact .inl (isSuccess_serve.mpr ⟨_, _, _, hcall, hsearch⟩)
  | error cause =>
      obtain ⟨side, rfl⟩ := scoreRecords_error hfit hscored
      rw [hscored] at hsearch
      refine .inr ⟨side, ?_⟩
      rw [serve_of_some s hcall, hsearch]

/-- As long as requests recast no transaction, every stored record has the
dimension of its collection, and no search fails for a record that does not
fit. -/
theorem Steady.fitting {o : Options} {s : State} (h : Steady o s) :
    Fitting o s := by
  refine ⟨h.matched.fits, fun r q c => searched_of_fits h.matched.fits,
    fun call => ?_⟩
  constructor
  · exact not_fits_of_recasts h.matched
  · rintro ⟨collection, id, hmisfit⟩
    by_contra hsteady
    have hcommit : ¬Recasts (Service.step o s call).2
        (.commit collection id) := by
      rintro ⟨_, _, _, hcall, -⟩
      cases hcall
    exact hmisfit ((h.matched.step hsteady).step hcommit).fits

-- A record of one component is staged, and then its collection is deleted
-- and made anew for vectors of two.
namespace Recast

def made : State :=
  (step {} .initial (.createCollection (.ofDimension "A" none 1))).2

def opened : State := (step {} made (.createTransaction "A")).2

def staged : State := (step {} opened (.upsert ⟨"A", ⟨"1"⟩, [⟨⟨1⟩, [1.0]⟩]⟩)).2

def committed : State :=
  [.deleteCollection "A", .createCollection (.ofDimension "A" none 2),
    .commit "A" ⟨"1"⟩].foldl
    (fun s call => (step {} s call).2) staged

def query : Request :=
  { method := .post, target := "/vectordb/search", authorization? := none
    contentType? := some "application/json"
    body := "\x7b\"vector_db_name\":\"A\",\"vector\":[1,0],\"k\":1\x7d" }

theorem not_recasts_of_unstaged {s : State} {call : Call}
    (h : (s.transactions.values.all fun t => t.staged.isEmpty) = true) :
    ¬Recasts s call := by
  rintro ⟨request, id, t, -, -, hopen, r, hr, -⟩
  have hmem := Dictionary.mem_values (openTransaction_eq_ok.mp hopen).1
  rw [List.isEmpty_iff.mp (List.all_eq_true.mp h t hmem)] at hr
  cases hr

/-- A service with staged records that fit is steady, so that the witness
starts from one with something to lose. -/
private theorem steady_staged : Steady {} staged :=
  ((Steady.initial.step _ (not_recasts_of_unstaged (by decide +kernel))).step _
    (not_recasts_of_unstaged (by decide +kernel))).step _
    (not_recasts_of_unstaged (by decide +kernel))

private theorem reachable_committed : Reachable {} committed :=
  (((((Reachable.initial.step _).step _).step _).step _).step _).step _

end Recast

/-- With records staged, the steady service is one whose answers all fit. -/
theorem Steady.fitting_of_staged :
    Steady {} Recast.staged ∧ Fitting {} Recast.staged :=
  ⟨Recast.steady_staged, Recast.steady_staged.fitting⟩

/-- Once a transaction was recast, a record need not fit its collection,
and then a search with a vector that does is refused over its dimension. -/
theorem committed_recast_misfits :
    Reachable {} Recast.committed ∧
    (Recast.committed.collections.get? "A").map
      (fun c => (c.dimension, c.committed.map Record.dimension))
        = some (2, [1]) ∧
    ¬Recast.committed.Fits ∧
    ((serve {} Recast.query Recast.committed).1.status,
      (serve {} Recast.query Recast.committed).1.body)
      = (400, (Fault.dimensionMismatch 2 1).message) := by
  have hget : (Recast.committed.collections.get? "A").map
      (fun c => (c.dimension, c.committed.map Record.dimension))
        = some (2, [1]) := by
    decide +kernel
  refine ⟨Recast.reachable_committed, hget, fun hfits => ?_, by decide +kernel⟩
  obtain ⟨c, hc, heq⟩ := Option.map_eq_some_iff.mp hget
  obtain ⟨hdimension, hrecords⟩ := Prod.mk.inj heq
  obtain ⟨r, hr, hone⟩ :=
    List.mem_map.mp (hrecords ▸ List.mem_singleton_self 1)
  have htwo := (hfits "A" c hc r hr).trans hdimension
  omega

end Service

end KnnOracle
