/-
A faithful service.

A service is faithful if no option makes it deviate. For each call there
is one lemma that says what a faithful service does where nothing is in
the way: `State.Holds` is what the caller relies on between the calls,
and `State.Stages` what it relies on while a transaction is open.
-/
import KnnOracle.Proofs.Service.Meeting
import KnnOracle.Proofs.Service.Overwriting

namespace KnnOracle.Service

/-- No option makes the service deviate. -/
structure Options.IsFaithful (o : Options) : Prop where
  failUpsertFor : o.failUpsertFor = none
  dropRank : o.dropRank = none
  scoreBias : o.scoreBias = 0.0
  fetchBias : o.fetchBias = 0.0

/-- A collection is there and holds these records. -/
def State.Holds (s : State) (name : String) (dimension : Nat)
    (records : List Record) : Prop :=
  ∃ c, s.collections.get? name = some c ∧ c.dimension = dimension ∧
    c.committed = records

/-- An empty collection is there, and an open transaction of it with these
records. -/
structure State.Stages (s : State) (name : String) (dimension : Nat)
    (id : TransactionId) (records : List Record) : Prop where
  holds : s.Holds name dimension []
  transaction : s.transactions.get? id.text = some ⟨name, records, .opened⟩

-- ============================================================== the calls

variable {o : Options} {s : State} {name : String} {dimension : Nat}

/-- A service makes a collection under a free name. It holds no records then,
in the dimension that was asked for. -/
theorem meet_createCollection {r : CollectionRequest}
    (hfree : s.collections.get? r.name = none) :
    ∃ answer s', meet o s (.createCollection r) = (.ok answer, s') ∧
      s'.Holds r.name r.dense.dimension [] := by
  have hcontains : ¬s.collections.contains r.name = true := by
    show ¬(s.collections.get? r.name).isSome = true
    rw [hfree]
    exact Bool.false_ne_true
  exact ⟨_, _, meet_of_ok (if_neg hcontains), _, Dictionary.get?_put_self ..,
    rfl, rfl⟩

/-- A service makes the index of a collection that it holds, and the records
stay. -/
theorem meet_createIndex {r : IndexRequest} {records : List Record}
    (h : s.Holds r.collection dimension records) :
    ∃ answer s', meet o s (.createIndex r) = (.ok answer, s') ∧
      s'.Holds r.collection dimension records := by
  obtain ⟨c, hc, hdimension, hcommitted⟩ := h
  have hstep : step o s (.createIndex r)
      = (.ok (.object [("collection_name", .text r.collection)]), { s with
        collections :=
          s.collections.put r.collection { c with hasIndex := true } }) := by
    show createIndex s r = _
    unfold createIndex
    rw [hc]
  exact ⟨_, _, meet_of_ok hstep, _, Dictionary.get?_put_self .., hdimension,
    hcommitted⟩

/-- A service opens a transaction on a collection that it holds, with nothing
staged. -/
theorem meet_createTransaction (h : s.Holds name dimension []) :
    ∃ id s', meet o s (.createTransaction name) = (.ok id, s') ∧
      s'.Stages name dimension id [] := by
  obtain ⟨c, hc, hdimension, hcommitted⟩ := h
  let id : TransactionId := ⟨toString (s.counter + 1).toNat⟩
  have hstep : step o s (.createTransaction name) = (.ok id,
      { s with
        counter := s.counter + 1
        transactions := s.transactions.put id.text ⟨name, [], .opened⟩ }) := by
    show createTransaction s name = _
    unfold createTransaction
    rw [hc]
  exact ⟨id, _, meet_of_ok hstep, ⟨c, hc, hdimension, hcommitted⟩,
    Dictionary.get?_put_self ..⟩

/-- A batch that is admitted is staged after what its transaction has
already. -/
private theorem upsert_of_admitBatch {b : Batch} {c : Collection}
    {t : Transaction} (hc : s.collections.get? b.collection = some c)
    (hadmits : admitBatch o c.dimension b.records = .ok ())
    (hopen : openTransaction s b.collection b.transaction.text = .ok t) :
    upsert o s b = (.ok (),
      { s with
        upsertCalls := s.upsertCalls + 1
        transactions :=
          s.transactions.put b.transaction.text
            { t with staged := t.staged ++ b.records } }) := by
  have hcounted : openTransaction { s with
    upsertCalls := s.upsertCalls + 1 } b.collection
      b.transaction.text = .ok t := hopen
  unfold upsert
  dsimp only
  rw [hc]
  dsimp only
  rw [hadmits]
  dsimp only
  rw [hcounted]

/-- A batch of the right dimension goes behind what is staged already. Batches
are therefore staged in the order in which they arrive. -/
theorem meet_upsert {batch : Batch} {staged : List Record}
    (hfaithful : o.IsFaithful)
    (h : s.Stages batch.collection dimension batch.transaction staged)
    (hfit : ∀ r ∈ batch.records, r.dimension = dimension) :
    ∃ s', meet o s (.upsert batch) = (.ok (), s') ∧
      s'.Stages batch.collection dimension batch.transaction
        (staged ++ batch.records) := by
  obtain ⟨⟨c, hc, hdimension, hcommitted⟩, htransaction⟩ := h
  have hadmits : admitBatch o c.dimension batch.records = .ok () := by
    unfold admitBatch
    rw [List.find?_eq_none.mpr, hfaithful.failUpsertFor]
    intro r hr
    simp [hfit r hr, hdimension]
  have hopen := openTransaction_eq_ok.mpr ⟨htransaction, rfl, rfl⟩
  have hstep : step o s (.upsert batch) = _ :=
    upsert_of_admitBatch hc hadmits hopen
  exact ⟨_, meet_of_ok hstep, ⟨c, hc, hdimension, hcommitted⟩,
    Dictionary.get?_put_self ..⟩

/-- A commit carries over what is staged, in its order, since the collection
held nothing before and no id is there twice. -/
theorem meet_commit {id : TransactionId} {staged : List Record}
    (h : s.Stages name dimension id staged)
    (hnodup : (staged.map Record.id).Nodup) :
    ∃ s', meet o s (.commit name id) = (.ok (), s') ∧
      s'.Holds name dimension staged := by
  obtain ⟨⟨c, hc, hdimension, hcommitted⟩, htransaction⟩ := h
  have hopen : openTransaction s name id.text = .ok ⟨name, staged, .opened⟩ :=
    openTransaction_eq_ok.mpr ⟨htransaction, rfl, rfl⟩
  have hplaced : placeAll staged c.committed = staged := by
    rw [hcommitted]
    exact placeAll_of_nodup hnodup
  rcases commit_cases s name id with ⟨e, hclosed, -⟩ |
    ⟨t, hopen', ⟨hgone, -⟩ | ⟨c', hc', heq⟩⟩
  · rw [hopen] at hclosed
    cases hclosed
  · rw [hc] at hgone
    cases hgone
  · rw [hopen] at hopen'
    rw [hc] at hc'
    cases hopen'
    cases hc'
    have hstep : step o s (.commit name id) = _ := heq
    exact ⟨_, meet_of_ok hstep, _, Dictionary.get?_put_self .., hdimension,
      hplaced⟩

/-- A faithful service gives a record back as it was stored. A bias of zero is
added to each component, which changes no value and turns `-0.0` into `0.0`. -/
theorem meet_fetch {stored : List Record} {r : Record}
    (hfaithful : o.IsFaithful) (h : s.Holds name dimension stored)
    (hnodup : (stored.map Record.id).Nodup) (hr : r ∈ stored) :
    meet o s (.fetch ⟨name, r.id⟩)
      = (.ok ⟨r.id, r.values.map (· + 0.0)⟩, s) := by
  obtain ⟨c, hc, -, rfl⟩ := h
  have hfind : (c.committed.find? fun x => x.id = r.id) = some r :=
    (recordOf?_eq_some hnodup).mpr ⟨hr, rfl⟩
  refine meet_of_ok ?_
  show fetch o s ⟨name, r.id⟩ = _
  unfold fetch
  dsimp only
  rw [hc]
  dsimp only
  rw [hfind, hfaithful.fetchBias]

/-- A faithful service answers a search with the best of all its records,
ranked as the oracle ranks them. -/
theorem meet_search {r : SearchRequest} {stored : List Record}
    {scored : List Neighbor} (hfaithful : o.IsFaithful)
    (h : s.Holds r.collection dimension stored)
    (hscored : scoreRecords 0.0 r.vector stored = .ok scored) :
    meet o s (.search r)
      = (.ok ((Neighbor.rank scored).take (r.k.getD defaultK)), s) := by
  obtain ⟨c, hc, -, rfl⟩ := h
  refine meet_of_ok ?_
  show search o s r = _
  unfold search
  rw [hc, hfaithful.scoreBias]
  dsimp only
  rw [hscored, hfaithful.dropRank]
  rfl

end KnnOracle.Service
