/-
What a call does to a service.

Each call that can change anything has one lemma that says all it can do
(`*_cases`): it is refused and, with one exception, leaves everything as
it was, or it is granted and changes what is named. The exception is a
commit whose collection is gone, which closes its transaction first.
Everything else in this file, and whatever is said of a service
elsewhere, goes through these lemmas and opens no handler again.

# Frames

`Call.writes?` names the collection to which a call belongs. A call to
another collection changes neither the records of this one
(`Effect.get?_collections`) nor what its transactions hold: the worst it
can do is to be given the name of one of them (`Effect.get?_transactions`).
What a call reads is all in the collection that it names
(`step_eq_of_reads?`).

# Names

The name of a transaction is the number that the counter had. The counter
goes around after so many transactions as there are numbers; until then
no name is given twice (`Issued.ne_next`).
-/
import Std.Data.String.ToNat
import KnnOracle.Proofs.Service.Overwriting

namespace KnnOracle

-- ============================================================== the calls

/-- The collection that a call changes, or opens or uses a transaction of. -/
def Call.writes? : Call → Option String
  | .createCollection r => some r.name
  | .getCollection _ => none
  | .deleteCollection name => some name
  | .createIndex r => some r.collection
  | .createTransaction collection => some collection
  | .upsert batch => some batch.collection
  | .commit collection _ => some collection
  | .abort collection _ => some collection
  | .fetch _ => none
  | .search _ => none

/-- The collection that a call only looks at. -/
def Call.reads? : Call → Option String
  | .getCollection name => some name
  | .fetch r => some r.collection
  | .search r => some r.collection
  | _ => none

/-- Whether a call asks for a transaction. -/
def Call.isCreateTransaction : Call → Bool
  | .createTransaction _ => true
  | _ => false

namespace Service

-- ========================================================== each call

/-- A transaction is open on a collection if it is there, is the
collection's, and was not closed. -/
theorem openTransaction_eq_ok {s : State} {collection name : String}
    {t : Transaction} :
    openTransaction s collection name = .ok t ↔
      s.transactions.get? name = some t ∧ t.collection = collection ∧
        t.status = .opened := by
  unfold openTransaction
  cases h : s.transactions.get? name with
  | none => simp
  | some x =>
      by_cases hcollection : x.collection = collection
      · by_cases hstatus : x.status = .opened
        · simp only [hcollection, hstatus, ne_eq, not_true_eq_false, if_false]
          constructor
          · intro heq
            cases heq
            exact ⟨rfl, hcollection, hstatus⟩
          · rintro ⟨heq, -⟩
            cases heq
            rfl
        · simp only [hcollection, hstatus, ne_eq, not_true_eq_false,
            not_false_eq_true, if_false, if_true, reduceCtorEq, false_iff]
          rintro ⟨heq, -, hopened⟩
          cases heq
          exact hstatus hopened
      · simp only [hcollection, ne_eq, not_false_eq_true, if_true,
          reduceCtorEq, false_iff]
        rintro ⟨heq, hcollection', -⟩
        cases heq
        exact hcollection hcollection'

/-- An open transaction is the one that was put, or was open before. -/
theorem openTransaction_of_put {s after : State} {key collection id : String}
    {t t' : Transaction}
    (hafter : after.transactions = s.transactions.put key t')
    (hopen : openTransaction after collection id = .ok t) :
    (t = t' ∧ t'.collection = collection ∧ t'.status = .opened) ∨
    openTransaction s collection id = .ok t := by
  obtain ⟨hget, hcollection, hstatus⟩ := openTransaction_eq_ok.mp hopen
  rw [hafter, Dictionary.get?_put] at hget
  split at hget
  · cases hget
    exact .inl ⟨rfl, hcollection, hstatus⟩
  · exact .inr (openTransaction_eq_ok.mpr ⟨hget, hcollection, hstatus⟩)

theorem openTransaction_congr {s after : State}
    (h : after.transactions = s.transactions) (collection id : String) :
    openTransaction after collection id = openTransaction s collection id := by
  unfold openTransaction
  rw [h]

section calls

variable (o : Options) (s : State)

/-- A collection is refused and nothing changes, or it is made. -/
theorem createCollection_cases (r : CollectionRequest) :
    (∃ e, createCollection s r = (.error e, s)) ∨
    ∃ answer, createCollection s r = (.ok answer,
      { s with
        collections :=
          s.collections.put r.name
            ⟨r.dense.dimension, [], r.dense.autoCreateIndex⟩ }) := by
  unfold createCollection
  split
  · exact Or.inl ⟨_, rfl⟩
  · exact Or.inr ⟨_, rfl⟩

/-- A deletion is refused and nothing changes, or the collection goes. Its
transactions stay, and this is what commits can stumble over. -/
theorem deleteCollection_cases (name : String) :
    (∃ e, deleteCollection s name = (.error e, s)) ∨
    deleteCollection s name = (.ok (),
      { s with collections := s.collections.erase name }) := by
  unfold deleteCollection
  split
  · exact Or.inl ⟨_, rfl⟩
  · exact Or.inr rfl

/-- An index is refused and nothing changes, or it is marked on a collection
that is there. -/
theorem createIndex_cases (r : IndexRequest) :
    (∃ e, createIndex s r = (.error e, s)) ∨
    ∃ answer c, s.collections.get? r.collection = some c ∧
      createIndex s r = (.ok answer, { s with
        collections :=
          s.collections.put r.collection { c with hasIndex := true } }) := by
  unfold createIndex
  split
  · exact Or.inl ⟨_, rfl⟩
  · next c h => exact Or.inr ⟨_, c, h, rfl⟩

/-- A transaction is refused and nothing changes, or a new one is opened under
the next number, on a collection that is there. -/
theorem createTransaction_cases (collection : String) :
    (∃ e, createTransaction s collection = (.error e, s)) ∨
    ∃ c, s.collections.get? collection = some c ∧
      createTransaction s collection =
      (.ok ⟨toString (s.counter + 1).toNat⟩,
        { s with
          counter := s.counter + 1
          transactions :=
            s.transactions.put (toString (s.counter + 1).toNat)
              ⟨collection, [], .opened⟩ }) := by
  unfold createTransaction
  split
  · exact Or.inl ⟨_, rfl⟩
  · next c h => exact Or.inr ⟨c, h, rfl⟩

/-- A batch is refused, or its records are staged in an open transaction.
Either way it was counted. -/
theorem upsert_cases (b : Batch) :
    (∃ e, upsert o s b = (.error e,
      { s with upsertCalls := s.upsertCalls + 1 })) ∨
    ∃ t, openTransaction s b.collection b.transaction.text = .ok t ∧
      upsert o s b =
      (.ok (),
        { s with
          upsertCalls := s.upsertCalls + 1
          transactions :=
            s.transactions.put b.transaction.text
              { t with staged := t.staged ++ b.records } }) := by
  unfold upsert
  dsimp only
  split
  · exact Or.inl ⟨_, rfl⟩
  · split
    · exact Or.inl ⟨_, rfl⟩
    · split
      · exact Or.inl ⟨_, rfl⟩
      · next t h => exact Or.inr ⟨t, h, rfl⟩

/-- A commit is refused because its transaction is not open, and nothing
changes. Or the transaction is closed, and its records are placed if the
collection is still there: if it is not, they are lost. -/
theorem commit_cases (collection : String) (transaction : TransactionId) :
    (∃ e, openTransaction s collection transaction.text = .error e ∧
      commit s collection transaction = (.error e, s)) ∨
    ∃ t, openTransaction s collection transaction.text = .ok t ∧
      ((s.collections.get? collection = none ∧
        commit s collection transaction = (.error (notFound "collection"),
          { s with
            transactions :=
              s.transactions.put transaction.text
                { t with staged := [], status := .committed } })) ∨
      ∃ c, s.collections.get? collection = some c ∧
        commit s collection transaction = (.ok (),
          { s with
            transactions :=
              s.transactions.put transaction.text
                { t with staged := [], status := .committed }
            collections :=
              s.collections.put collection
                { c with committed := placeAll t.staged c.committed } })) := by
  unfold commit
  split
  · next e h => exact Or.inl ⟨e, h, rfl⟩
  · next t h =>
      refine Or.inr ⟨t, h, ?_⟩
      dsimp only
      split
      · next hnone => exact Or.inl ⟨hnone, rfl⟩
      · next c hsome => exact Or.inr ⟨c, hsome, rfl⟩

/-- An abort is refused because its transaction is not open, or it closes the
transaction and drops what was staged. -/
theorem abort_cases (collection : String) (transaction : TransactionId) :
    (∃ e, openTransaction s collection transaction.text = .error e ∧
      abort s collection transaction = (.error e, s)) ∨
    ∃ t, openTransaction s collection transaction.text = .ok t ∧
      abort s collection transaction = (.ok (),
        { s with
          transactions :=
            s.transactions.put transaction.text { t with
              staged := [], status := .aborted } }) := by
  unfold abort
  split
  · next e h => exact Or.inl ⟨e, h, rfl⟩
  · next t h => exact Or.inr ⟨t, h, rfl⟩

/-- A call that only looks leaves everything as it is. -/
theorem step_of_writes?_eq_none {call : Call} (h : call.writes? = none) :
    (step o s call).2 = s := by
  cases call with
  | getCollection name =>
      show (getCollection s name).2 = s
      unfold getCollection
      split <;> rfl
  | fetch r =>
      show (fetch o s r).2 = s
      unfold fetch
      split
      · rfl
      · split <;> rfl
  | search r =>
      show (search o s r).2 = s
      unfold search
      split
      · rfl
      · split <;> rfl
  | _ => cases h

end calls

-- =============================================================== effects

/-- What a call can do to what a service remembers. -/
inductive Effect (s : State) : Call → State → Prop where
  /-- It is refused, or only looks. -/
  | unchanged {call : Call} (after : State)
      (hcollections : after.collections = s.collections)
      (htransactions : after.transactions = s.transactions)
      (hcounter : after.counter = s.counter) :
      Effect s call after
  | createCollection (r : CollectionRequest) (c : Collection)
      (hempty : c.committed = []) :
      Effect s (.createCollection r) { s with
        collections := s.collections.put r.name c }
  | deleteCollection (name : String) :
      Effect s (.deleteCollection name) { s with
        collections := s.collections.erase name }
  | createIndex (r : IndexRequest) (c : Collection)
      (hc : s.collections.get? r.collection = some c) :
      Effect s (.createIndex r)
        { s with
          collections :=
            s.collections.put r.collection { c with hasIndex := true } }
  | createTransaction (collection : String) :
      Effect s (.createTransaction collection)
        { s with
          counter := s.counter + 1
          transactions :=
            s.transactions.put (toString (s.counter + 1).toNat)
              ⟨collection, [], .opened⟩ }
  | upsert (batch : Batch) (t : Transaction)
      (hopen : openTransaction s batch.collection batch.transaction.text
        = .ok t) :
      Effect s (.upsert batch)
        { s with
          upsertCalls := s.upsertCalls + 1
          transactions :=
            s.transactions.put batch.transaction.text
              { t with staged := t.staged ++ batch.records } }
  /-- A transaction is closed, but its collection is gone. -/
  | lose (collection : String) (transaction : TransactionId) (t : Transaction)
      (hopen : openTransaction s collection transaction.text = .ok t) :
      Effect s (.commit collection transaction)
        { s with
          transactions :=
            s.transactions.put transaction.text { t with
              staged := [], status := .committed } }
  | commit (collection : String) (transaction : TransactionId)
      (t : Transaction) (c : Collection)
      (hopen : openTransaction s collection transaction.text = .ok t)
      (hc : s.collections.get? collection = some c) :
      Effect s (.commit collection transaction)
        { s with
          transactions :=
            s.transactions.put transaction.text { t with
              staged := [], status := .committed }
          collections :=
            s.collections.put collection { c with
              committed := placeAll t.staged c.committed } }
  | abort (collection : String) (transaction : TransactionId) (t : Transaction)
      (hopen : openTransaction s collection transaction.text = .ok t) :
      Effect s (.abort collection transaction)
        { s with
          transactions :=
            s.transactions.put transaction.text { t with
              staged := [], status := .aborted } }

/-- A call has the effects that are listed and no others. What is shown of
effects from here on is shown of calls, without a look at the handlers. -/
theorem step_effect (o : Options) (s : State) (call : Call) :
    Effect s call (step o s call).2 := by
  cases call with
  | createCollection r =>
      show Effect s _ (createCollection s r).2
      rcases createCollection_cases s r with ⟨e, heq⟩ | ⟨answer, heq⟩
      · rw [heq]
        exact .unchanged s rfl rfl rfl
      · rw [heq]
        exact .createCollection r _ rfl
  | deleteCollection name =>
      show Effect s _ (deleteCollection s name).2
      rcases deleteCollection_cases s name with ⟨e, heq⟩ | heq
      · rw [heq]
        exact .unchanged s rfl rfl rfl
      · rw [heq]
        exact .deleteCollection name
  | createIndex r =>
      show Effect s _ (createIndex s r).2
      rcases createIndex_cases s r with ⟨e, heq⟩ | ⟨answer, c, hc, heq⟩
      · rw [heq]
        exact .unchanged s rfl rfl rfl
      · rw [heq]
        exact .createIndex r c hc
  | createTransaction collection =>
      show Effect s _ (createTransaction s collection).2
      rcases createTransaction_cases s collection with ⟨e, heq⟩ | ⟨c, -, heq⟩
      · rw [heq]
        exact .unchanged s rfl rfl rfl
      · rw [heq]
        exact .createTransaction collection
  | upsert batch =>
      show Effect s _ (upsert o s batch).2
      rcases upsert_cases o s batch with ⟨e, heq⟩ | ⟨t, hopen, heq⟩
      · rw [heq]
        exact .unchanged _ rfl rfl rfl
      · rw [heq]
        exact .upsert batch t hopen
  | commit collection transaction =>
      show Effect s _ (commit s collection transaction).2
      rcases commit_cases s collection transaction with
        ⟨e, -, heq⟩ | ⟨t, hopen, ⟨-, heq⟩ | ⟨c, hc, heq⟩⟩
      · rw [heq]
        exact .unchanged s rfl rfl rfl
      · rw [heq]
        exact .lose collection transaction t hopen
      · rw [heq]
        exact .commit collection transaction t c hopen hc
  | abort collection transaction =>
      show Effect s _ (abort s collection transaction).2
      rcases abort_cases s collection transaction with ⟨e, -, heq⟩ |
        ⟨t, hopen, heq⟩
      · rw [heq]
        exact .unchanged s rfl rfl rfl
      · rw [heq]
        exact .abort collection transaction t hopen
  | getCollection name =>
      rw [step_of_writes?_eq_none o s rfl]
      exact .unchanged s rfl rfl rfl
  | fetch r =>
      rw [step_of_writes?_eq_none o s rfl]
      exact .unchanged s rfl rfl rfl
  | search r =>
      rw [step_of_writes?_eq_none o s rfl]
      exact .unchanged s rfl rfl rfl

-- ================================================================ frames

namespace Effect

variable {s after : State} {call : Call}

/-- A call changes no other collection than the one it names. -/
theorem get?_collections {name : String} (h : Effect s call after)
    (hname : call.writes? ≠ some name) :
    after.collections.get? name = s.collections.get? name := by
  cases h with
  | unchanged _ hcollections _ _ => rw [hcollections]
  | createCollection r c _ =>
      exact (Dictionary.get?_put ..).trans
        (if_neg fun heq => hname (congrArg some heq))
  | deleteCollection other =>
      exact (Dictionary.get?_erase ..).trans
        (if_neg fun heq => hname (congrArg some heq))
  | createIndex r c _ =>
      exact (Dictionary.get?_put ..).trans
        (if_neg fun heq => hname (congrArg some heq))
  | createTransaction collection => rfl
  | upsert batch t _ => rfl
  | lose collection transaction t _ => rfl
  | commit collection transaction t c _ _ =>
      exact (Dictionary.get?_put ..).trans
        (if_neg fun heq => hname (congrArg some heq))
  | abort collection transaction t _ => rfl

/-- A call may put a transaction under a name: it opens the transaction,
or uses it while it is open, and belongs to its collection. -/
def MayPut (s : State) (call : Call) (name : String) (t : Transaction) :
    Prop :=
  call.writes? = some t.collection ∧
  ((call = .createTransaction t.collection ∧
    name = toString (s.counter + 1).toNat) ∨
    ∃ before, openTransaction s t.collection name = .ok before)

/-- What is put back under the name of an open transaction, with the same
collection, may be put. -/
private theorem mayPut_of_open {collection name : String} {t t' : Transaction}
    (hopen : openTransaction s collection name = .ok t)
    (hcall : call.writes? = some collection)
    (ht : t'.collection = t.collection) :
    MayPut s call name t' := by
  obtain ⟨-, rfl, -⟩ := openTransaction_eq_ok.mp hopen
  unfold MayPut
  rw [ht]
  exact ⟨hcall, Or.inr ⟨t, hopen⟩⟩

private theorem get?_put_cases {key name : String} {t : Transaction}
    (hkey : key = name → MayPut s call name t) :
    (s.transactions.put key t).get? name = s.transactions.get? name ∨
    ∃ t', (s.transactions.put key t).get? name = some t' ∧
      MayPut s call name t' := by
  rw [Dictionary.get?_put]
  by_cases hname : key = name
  · rw [if_pos hname]
    exact Or.inr ⟨t, rfl, hkey hname⟩
  · rw [if_neg hname]
    exact Or.inl rfl

/-- A call puts at most one transaction, and one that it may put. -/
theorem get?_transactions (h : Effect s call after) (name : String) :
    after.transactions.get? name = s.transactions.get? name ∨
    ∃ t, after.transactions.get? name = some t ∧ MayPut s call name t := by
  cases h with
  | unchanged _ _ htransactions _ => exact Or.inl (by rw [htransactions])
  | createCollection r c _ => exact Or.inl rfl
  | deleteCollection other => exact Or.inl rfl
  | createIndex r c _ => exact Or.inl rfl
  | createTransaction collection =>
      exact get?_put_cases fun hname => ⟨rfl, Or.inl ⟨rfl, hname.symm⟩⟩
  | upsert batch t hopen =>
      refine get?_put_cases ?_
      rintro rfl
      exact mayPut_of_open hopen rfl rfl
  | lose collection transaction t hopen =>
      refine get?_put_cases ?_
      rintro rfl
      exact mayPut_of_open hopen rfl rfl
  | commit collection transaction t c hopen _ =>
      refine get?_put_cases ?_
      rintro rfl
      exact mayPut_of_open hopen rfl rfl
  | abort collection transaction t hopen =>
      refine get?_put_cases ?_
      rintro rfl
      exact mayPut_of_open hopen rfl rfl

/-- A call to another collection leaves a transaction alone, unless it
gives the name of the transaction away. -/
theorem get?_transactions_of_writes? {name : String} {t : Transaction}
    (h : Effect s call after) (hcall : call.writes? ≠ some t.collection)
    (ht : s.transactions.get? name = some t) :
    after.transactions.get? name = some t ∨
    ∃ other, call = .createTransaction other ∧
      name = toString (s.counter + 1).toNat := by
  rcases h.get?_transactions name with heq |
    ⟨t', -, hwrites, ⟨hcreate, hname⟩ | hopen⟩
  · exact Or.inl (heq.trans ht)
  · exact Or.inr ⟨t'.collection, hcreate, hname⟩
  · obtain ⟨before, hbefore⟩ := hopen
    obtain ⟨hget, hcollection, -⟩ := openTransaction_eq_ok.mp hbefore
    rw [ht] at hget
    cases hget
    exact absurd (hwrites.trans (congrArg some hcollection.symm)) hcall

/-- A call to another collection opens no transaction for this one, and
reopens none. -/
theorem openTransaction_eq_ok {collection name : String} {t : Transaction}
    (h : Effect s call after) (hcall : call.writes? ≠ some collection)
    (hopen : openTransaction after collection name = .ok t) :
    openTransaction s collection name = .ok t := by
  obtain ⟨hget, hcollection, hstatus⟩ := Service.openTransaction_eq_ok.mp hopen
  rcases h.get?_transactions name with heq | ⟨t', hget', hwrites, -⟩
  · exact Service.openTransaction_eq_ok.mpr
      ⟨heq.symm.trans hget, hcollection, hstatus⟩
  · rw [hget] at hget'
    cases hget'
    exact absurd (hwrites.trans (congrArg some hcollection)) hcall

theorem counter (h : Effect s call after) :
    after.counter = s.counter ∨
    ∃ collection, call = .createTransaction collection ∧
      after.counter = s.counter + 1 := by
  cases h with
  | unchanged _ _ _ hcounter => exact Or.inl hcounter
  | createTransaction collection => exact Or.inr ⟨collection, rfl, rfl⟩
  | _ => exact Or.inl rfl

end Effect

/-- What a call reads is in the collection that it names, so the others do not
matter to its answer. -/
theorem step_eq_of_reads? {o : Options} {s s' : State} {call : Call}
    {name : String} (hreads : call.reads? = some name)
    (h : s'.collections.get? name = s.collections.get? name) :
    (step o s' call).1 = (step o s call).1 := by
  cases call with
  | getCollection other =>
      cases hreads
      show (getCollection s' name).1 = (getCollection s name).1
      unfold getCollection
      rw [h]
      split <;> rfl
  | fetch r =>
      cases hreads
      show (fetch o s' r).1 = (fetch o s r).1
      unfold fetch
      rw [h]
      split
      · rfl
      · split <;> rfl
  | search r =>
      cases hreads
      show (search o s' r).1 = (search o s r).1
      unfold search
      rw [h]
      split
      · rfl
      · split <;> rfl
  | _ => cases hreads

-- ================================================== the reachable states

/-- The states that a service can be in after calls of any kind. -/
inductive Reachable (o : Options) : State → Prop where
  | initial : Reachable o .initial
  | step {s : State} (h : Reachable o s) (call : Call) :
      Reachable o (step o s call).2

/-- No id repeats in a collection. -/
def State.Distinct (s : State) : Prop :=
  ∀ name c, s.collections.get? name = some c →
    (c.committed.map Record.id).Nodup

/-- To keep ids distinct everywhere, only the collection that is put has to be
looked at. -/
theorem State.Distinct.put {s after : State} {key : String} {c : Collection}
    (h : s.Distinct) (hafter : after.collections = s.collections.put key c)
    (hc : (c.committed.map Record.id).Nodup) : after.Distinct := by
  intro name c' hget
  rw [hafter, Dictionary.get?_put] at hget
  split at hget
  · cases hget
    exact hc
  · exact h name c' hget

/-- No call makes an id repeat: a commit replaces records under their ids. -/
theorem Effect.distinct {s after : State} {call : Call}
    (heffect : Effect s call after) (h : s.Distinct) : after.Distinct := by
  cases heffect with
  | unchanged _ hcollections _ _ =>
      intro name c hc
      rw [hcollections] at hc
      exact h name c hc
  | createCollection r c hempty =>
      refine h.put rfl ?_
      rw [hempty]
      exact List.nodup_nil
  | deleteCollection other =>
      intro name c hc
      have hc := (Dictionary.get?_erase ..).symm.trans hc
      split at hc
      · cases hc
      · exact h name c hc
  | createIndex r c hc => exact h.put rfl (h r.collection c hc)
  | createTransaction collection => exact h
  | upsert batch t _ => exact h
  | lose collection transaction t _ => exact h
  | commit collection transaction t c _ hc =>
      exact h.put rfl (nodup_placeAll (h collection c hc))
  | abort collection transaction t _ => exact h

/-- In no reachable state does an id repeat in a collection. The program never
checks this; it follows from how records are placed. -/
theorem Reachable.distinct {o : Options} {s : State} (h : Reachable o s) :
    s.Distinct := by
  induction h with
  | initial =>
      intro name c hc
      cases hc
  | step _ call ih => exact (step_effect o _ call).distinct ih

-- ================================================== the names of transactions

/-- How many of the calls ask for a transaction. -/
def creations (calls : List Call) : Nat :=
  calls.countP Call.isCreateTransaction

/-- A name was given to a transaction, and the calls were made since. -/
def Issued (name : String) (calls : List Call) (s : State) : Prop :=
  ∃ (first : UInt64) (d : Nat), d ≤ creations calls ∧
    name = toString first.toNat ∧
    s.counter = first + UInt64.ofNat d

theorem creations_concat (calls : List Call) (call : Call) :
    creations (calls ++ [call])
      = creations calls + if call.isCreateTransaction then 1 else 0 := by
  unfold creations
  rw [List.countP_append, List.countP_singleton]

/-- A name that was given stays a given one: the counter moves by one at most
for each call that asks for a transaction. -/
theorem Effect.issued {s after : State} {call : Call} {name : String}
    {calls : List Call} (heffect : Effect s call after)
    (h : Issued name calls s) :
    Issued name (calls ++ [call]) after := by
  obtain ⟨first, d, hle, hname, hcounter⟩ := h
  rcases heffect.counter with hsame | ⟨collection, rfl, hnext⟩
  · refine ⟨first, d, ?_, hname, hsame.trans hcounter⟩
    rw [creations_concat]
    omega
  · refine ⟨first, d + 1, ?_, hname, ?_⟩
    · rw [creations_concat]
      exact Nat.add_le_add_right hle 1
    · rw [hnext, hcounter, UInt64.add_assoc]
      congr 1
      exact (UInt64.ofNat_add d 1).symm

/-- Before the counter has gone all the way around, a name is not given again.
A transaction can be told by its name for so long. -/
theorem Issued.ne_next {s : State} {name : String} {calls : List Call}
    (h : Issued name calls s) (hfew : creations calls + 1 < 2 ^ 64) :
    name ≠ toString (s.counter + 1).toNat := by
  obtain ⟨first, d, hle, rfl, hcounter⟩ := h
  intro heq
  have hnumber : first.toNat = (s.counter + 1).toNat := Nat.repr_injective heq
  rw [hcounter, UInt64.toNat_add, UInt64.toNat_add, UInt64.toNat_ofNat']
    at hnumber
  have hone : (1 : UInt64).toNat = 1 := rfl
  have hfirst : first.toNat < 2 ^ 64 := first.toNat_lt
  rw [hone] at hnumber
  omega

end Service

end KnnOracle
