/-
What a service holds of an upload.

An upload and the service it goes to see different things. The upload
knows what it sent and what it was told; the service may be ahead of that,
and calls that the upload has given up may still reach it. This file
follows the service: `Ledger` says, from the answers that it has given,
where the collection and the transaction of the upload stand. There are
four cases, and each call leads from one to another.

# The cases

No transaction was opened; it is open and has gathered the batches that
were accepted, in the order in which they came; it is shut without a
commit; or it was committed, and all that it had gathered is placed into
the collection. A transaction that is shut stays shut: whatever reaches
the service then is refused, so nothing that comes late can do harm. Only
one step changes the collection, the commit of an open transaction.
-/
import KnnOracle.Proofs.Service.Meeting

namespace KnnOracle

-- ==================================================== what was accepted

/-- The batches that were accepted, in order of the answers. -/
def acceptedIn (moves : List Move) : List (Nat × Batch) :=
  ((answersIn moves).filter fun answer => answer.2.isOk).map Prod.fst

/-- The records that were accepted. -/
def gatheredIn (moves : List Move) : List Record :=
  (acceptedIn moves).flatMap fun job => job.2.records

private theorem acceptedIn_append (moves rest : List Move) :
    acceptedIn (moves ++ rest) = acceptedIn moves ++ acceptedIn rest := by
  unfold acceptedIn
  rw [answersIn_append, List.filter_append, List.map_append]

private theorem gatheredIn_append (moves rest : List Move) :
    gatheredIn (moves ++ rest) = gatheredIn moves ++ gatheredIn rest := by
  unfold gatheredIn
  rw [acceptedIn_append, List.flatMap_append]

theorem mem_acceptedIn {moves : List Move} {number : Nat} {batch : Batch} :
    (number, batch) ∈ acceptedIn moves ↔
      Move.receive number (.upsert batch) (.ok ()) ∈ moves := by
  rw [← mem_answersIn]
  unfold acceptedIn
  rw [List.mem_map]
  constructor
  · rintro ⟨⟨job, reply⟩, hmem, rfl⟩
    obtain ⟨hmem, hok⟩ := List.mem_filter.mp hmem
    cases reply with
    | error e => cases hok
    | ok done => exact hmem
  · intro hmem
    exact ⟨_, List.mem_filter.mpr ⟨hmem, rfl⟩, rfl⟩

/-- The numbers of accepted batches are numbers of answered calls, and so none
is there twice. -/
theorem acceptedIn_sublist (moves : List Move) :
    ((acceptedIn moves).map Prod.fst).Sublist
      ((answeredIn moves).map Prod.fst) := by
  induction moves with
  | nil => exact List.Sublist.refl _
  | cons move rest ih =>
      cases move with
      | note event => exact ih
      | send number call => exact ih
      | receive number call reply =>
          show List.Sublist _ (number :: (answeredIn rest).map Prod.fst)
          cases call with
          | upsert batch =>
              cases reply with
              | ok done => exact ih.cons_cons number
              | error e => exact ih.cons number
          | _ => exact ih.cons number

namespace Upload

open Service

-- =========================================================== the ledger

/-- No commit was answered well. -/
def Uncommitted (posted : List Move) : Prop :=
  ∀ number name id, Move.receive number (.commit name id) (.ok ()) ∉ posted

/-- A talk without a commit has none after one more move, unless that move is
one. -/
theorem Uncommitted.concat {posted : List Move} {move : Move}
    (h : Uncommitted posted)
    (hmove : ∀ number name id,
      move ≠ .receive number (.commit name id) (.ok ())) :
    Uncommitted (posted ++ [move]) := by
  intro number name id hmem
  rcases List.mem_append.mp hmem with hmem | hmem
  · exact h number name id hmem
  · exact hmove number name id (List.mem_singleton.mp hmem).symm

/-- A transaction that is not open any more cannot be used, whatever else the
service holds. -/
private theorem openTransaction_ne_ok {s after : State}
    {collection name : String} {t : Transaction}
    (hput : after.transactions = s.transactions.put name t)
    (hstatus : t.status ≠ .opened) :
    ∀ t', openTransaction after collection name ≠ .ok t' := by
  intro t' hopen
  obtain ⟨hget, -, hopened⟩ := openTransaction_eq_ok.mp hopen
  rw [hput, Dictionary.get?_put, if_pos rfl] at hget
  cases hget
  exact hstatus hopened

/-- The state of a service after the answers that it has posted to an
upload of records into a collection, which was `before`; `others` are the
calls that others have made. -/
inductive Ledger (collection : String) (records : List Record)
    (before : Option Collection) (posted : List Move) (others : List Call)
    (s : State) : Prop where
  | unopened
      (hnone : ∀ id,
        Move.receive 0 (.createTransaction collection) (.ok id) ∉ posted)
      (hsame : s.collections.get? collection = before)
      (huncommitted : Uncommitted posted)
  | gathering (id : TransactionId)
      (hopening :
        Move.receive 0 (.createTransaction collection) (.ok id) ∈ posted)
      (hsame : s.collections.get? collection = before)
      (huncommitted : Uncommitted posted)
      (hissued : Issued id.text others s)
      (hopen : s.transactions.get? id.text
        = some ⟨collection, gatheredIn posted, .opened⟩)
  | shut (id : TransactionId)
      (hopening :
        Move.receive 0 (.createTransaction collection) (.ok id) ∈ posted)
      (hsame : s.collections.get? collection = before)
      (huncommitted : Uncommitted posted)
      (hshut : ∀ t, openTransaction s collection id.text ≠ .ok t)
  | committed (id : TransactionId) (number : Nat) (c : Collection)
      (arrived : List Record)
      (hopening :
        Move.receive 0 (.createTransaction collection) (.ok id) ∈ posted)
      (hcommitted :
        Move.receive number (.commit collection id) (.ok ()) ∈ posted)
      (hbefore : before = some c) (harrived : arrived.Perm records)
      (hafter : s.collections.get? collection =
        some { c with committed := placeAll arrived c.committed })
      (hissued : Issued id.text others s)
      (hkept : creations others < 2 ^ 64 →
        s.transactions.get? id.text = some ⟨collection, [], .committed⟩)
      (hshut : ∀ t, openTransaction s collection id.text ≠ .ok t)

namespace Ledger

variable {collection : String} {records : List Record}
  {before : Option Collection}
  {posted : List Move} {others : List Call} {s after : State}
  {o : Service.Options}

/-- Calls of others to other collections change nothing but that they may
be given the name of the transaction, which then is lost. -/
theorem other {call : Call}
    (h : Ledger collection records before posted others s)
    (heffect : Effect s call after) (hcall : call.writes? ≠ some collection) :
    Ledger collection records before posted (others ++ [call]) after := by
  have hcollections := heffect.get?_collections hcall
  cases h with
  | unopened hnone hsame huncommitted =>
      exact .unopened hnone (hcollections.trans hsame) huncommitted
  | gathering id hopening hsame huncommitted hissued hopen =>
      by_cases hstill : ∃ t, openTransaction after collection id.text = .ok t
      · obtain ⟨t, ht⟩ := hstill
        have hbefore := heffect.openTransaction_eq_ok hcall ht
        have hget := (openTransaction_eq_ok.mp hbefore).1
        rw [hopen] at hget
        cases hget
        exact .gathering id hopening (hcollections.trans hsame) huncommitted
          (heffect.issued hissued) (openTransaction_eq_ok.mp ht).1
      · refine .shut id hopening (hcollections.trans hsame) huncommitted ?_
        intro t ht
        exact hstill ⟨t, ht⟩
  | shut id hopening hsame huncommitted hshut =>
      refine .shut id hopening (hcollections.trans hsame) huncommitted ?_
      intro t ht
      exact hshut t (heffect.openTransaction_eq_ok hcall ht)
  | committed id number c arrived hopening hcommitted hbefore harrived hafter
      hissued hkept hshut =>
      refine .committed id number c arrived hopening hcommitted hbefore
        harrived
        (hcollections.trans hafter) (heffect.issued hissued) ?_ ?_
      · intro hfew
        rw [creations_concat] at hfew
        have ht := hkept (by omega)
        rcases heffect.get?_transactions_of_writes? hcall ht with hsame |
          ⟨other, rfl, hname⟩
        · exact hsame
        · exact absurd hname (hissued.ne_next hfew)
      · intro t ht
        exact hshut t (heffect.openTransaction_eq_ok hcall ht)

/-- A move that settles nothing: no opening, no commit, no batch. -/
def Idle (collection : String) (move : Move) : Prop :=
  gatheredIn [move] = [] ∧
  (∀ id, move ≠ .receive 0 (.createTransaction collection) (.ok id)) ∧
  ∀ number name id, move ≠ .receive number (.commit name id) (.ok ())

theorem Idle.uncommitted {move : Move} (hmove : Idle collection move)
    (h : Uncommitted posted) : Uncommitted (posted ++ [move]) :=
  h.concat hmove.2.2

private theorem idle_error (collection : String) {number : Nat} {call : Call}
    {e : CallError} :
    Idle collection (.receive number call (.error e)) := by
  refine ⟨?_, ?_, ?_⟩
  · cases call <;> rfl
  · intro id hmove
    cases hmove
  · intro number name id hmove
    cases hmove

/-- Nothing changes when a call is refused. -/
theorem refused {move : Move}
    (h : Ledger collection records before posted others s)
    (hmove : Idle collection move)
    (hcollections : after.collections = s.collections)
    (htransactions : after.transactions = s.transactions)
    (hcounter : after.counter = s.counter) :
    Ledger collection records before (posted ++ [move]) others after := by
  have hopen : ∀ id : TransactionId, openTransaction after collection id.text
      = openTransaction s collection id.text := by
    intro id
    unfold openTransaction
    rw [htransactions]
  have hissue : ∀ {name : String}, Issued name others s →
      Issued name others after := by
    rintro name ⟨first, d, hle, hname, heq⟩
    exact ⟨first, d, hle, hname, hcounter.trans heq⟩
  cases h with
  | unopened hnone hsame huncommitted =>
      refine .unopened ?_ (by rw [hcollections, hsame])
        (hmove.uncommitted huncommitted)
      intro id hmem
      rcases List.mem_append.mp hmem with hmem | hmem
      · exact hnone id hmem
      · exact hmove.2.1 id (List.mem_singleton.mp hmem).symm
  | gathering id hopening hsame huncommitted hissued hstaged =>
      refine .gathering id (List.mem_append_left _ hopening)
        (by rw [hcollections, hsame])
        (hmove.uncommitted huncommitted) (hissue hissued) ?_
      rw [htransactions, hstaged, gatheredIn_append, hmove.1, List.append_nil]
  | shut id hopening hsame huncommitted hshut =>
      refine .shut id (List.mem_append_left _ hopening)
        (by rw [hcollections, hsame])
        (hmove.uncommitted huncommitted) ?_
      intro t
      rw [hopen]
      exact hshut t
  | committed id number c arrived hopening hcommitted hbefore harrived hafter
      hissued hkept hshut =>
      refine .committed id number c arrived (List.mem_append_left _ hopening)
        (List.mem_append_left _ hcommitted) hbefore harrived
          (by rw [hcollections, hafter])
        (hissue hissued) (by rwa [htransactions]) ?_
      intro t
      rw [hopen]
      exact hshut t

/-- The transaction is opened, with nothing gathered in it. -/
theorem serve_createTransaction
    (h : Ledger collection records before posted others s)
    (hfirst : ∀ reply,
      Move.receive 0 (.createTransaction collection) reply ∉ posted)
    (hnothing : gatheredIn posted = []) :
    Ledger collection records before
      (posted ++ [.receive 0 (.createTransaction collection)
        (meet o s (.createTransaction collection)).1]) others
      (meet o s (.createTransaction collection)).2 := by
  rcases createTransaction_cases s collection with ⟨e, heq⟩ | ⟨c, -, heq⟩
  · have heq : step o s (.createTransaction collection) = (.error e, s) := heq
    rw [meet_of_error heq]
    exact h.refused (idle_error collection) rfl rfl rfl
  · have heq : step o s (.createTransaction collection) = (.ok _, _) := heq
    rw [meet_of_ok heq]
    cases h with
    | unopened hnone hsame huncommitted =>
        refine .gathering ⟨_⟩
          (List.mem_append_right _ (List.mem_singleton_self _)) hsame
          (huncommitted.concat ?_) ?_ ?_
        · intro number name id hmove
          cases hmove
        · exact ⟨s.counter + 1, 0, Nat.zero_le _, rfl,
            (UInt64.add_zero _).symm⟩
        · rw [gatheredIn_append, hnothing]
          exact (Dictionary.get?_put ..).trans (if_pos rfl)
    | gathering id hopening _ _ _ _ => exact absurd hopening (hfirst _)
    | shut id hopening _ _ _ => exact absurd hopening (hfirst _)
    | committed id number c arrived hopening _ _ _ _ _ _ _ =>
        exact absurd hopening (hfirst _)

section opened

variable {id : TransactionId} {number : Nat}

/-- Where a transaction was opened, it is this one that is open, or none is. -/
theorem staged_of_open {t : Transaction}
    (h : Ledger collection records before posted others s)
    (hopening :
      Move.receive 0 (.createTransaction collection) (.ok id) ∈ posted)
    (hunique : ∀ id', Move.receive 0 (.createTransaction collection) (.ok id')
      ∈ posted → id' = id)
    (hopen : openTransaction s collection id.text = .ok t) :
    t = ⟨collection, gatheredIn posted, .opened⟩ ∧
    s.collections.get? collection = before ∧
    Uncommitted posted ∧ Issued id.text others s := by
  cases h with
  | unopened hnone _ _ => exact absurd hopening (hnone id)
  | gathering id' hopening' hsame huncommitted hissued hstaged =>
      cases hunique id' hopening'
      have hget := (openTransaction_eq_ok.mp hopen).1
      rw [hstaged] at hget
      cases hget
      exact ⟨rfl, hsame, huncommitted, hissued⟩
  | shut id' hopening' _ _ hshut =>
      cases hunique id' hopening'
      exact absurd hopen (hshut t)
  | committed id' _ _ _ hopening' _ _ _ _ _ _ hshut =>
      cases hunique id' hopening'
      exact absurd hopen (hshut t)

/-- A batch is gathered, or refused and then the ledger stays as it is. -/
theorem serve_upsert {batch : Batch}
    (h : Ledger collection records before posted others s)
    (hopening :
      Move.receive 0 (.createTransaction collection) (.ok id) ∈ posted)
    (hunique : ∀ id', Move.receive 0 (.createTransaction collection) (.ok id')
      ∈ posted → id' = id)
    (hcollection : batch.collection = collection)
    (hid : batch.transaction = id) :
    Ledger collection records before
      (posted
        ++ [.receive number (.upsert batch) (meet o s (.upsert batch)).1])
          others
      (meet o s (.upsert batch)).2 := by
  subst hcollection hid
  rcases upsert_cases o s batch with ⟨e, heq⟩ | ⟨t, hopen, heq⟩
  · have heq : step o s (.upsert batch) = (.error e, _) := heq
    rw [meet_of_error heq]
    exact h.refused (idle_error _) rfl rfl rfl
  · have heq : step o s (.upsert batch) = (.ok (), _) := heq
    rw [meet_of_ok heq]
    obtain ⟨rfl, hsame, huncommitted, hissued⟩ :=
      h.staged_of_open hopening hunique hopen
    refine .gathering batch.transaction (List.mem_append_left _ hopening) hsame
      (huncommitted.concat ?_) hissued ?_
    · intro number name id hmove
      cases hmove
    · have hgathered : gatheredIn
          (posted ++ [.receive number (.upsert batch) (.ok ())])
          = gatheredIn posted ++ batch.records := by
        rw [gatheredIn_append]
        exact congrArg _ (List.append_nil _)
      rw [hgathered]
      exact (Dictionary.get?_put ..).trans (if_pos rfl)

/-- What was gathered is committed, if it is all there is. -/
theorem serve_commit (h : Ledger collection records before posted others s)
    (hopening :
      Move.receive 0 (.createTransaction collection) (.ok id) ∈ posted)
    (hunique : ∀ id', Move.receive 0 (.createTransaction collection) (.ok id')
      ∈ posted → id' = id)
    (hall : (gatheredIn posted).Perm records) :
    Ledger collection records before
      (posted
        ++ [.receive number (.commit collection id)
          (meet o s (.commit collection id)).1])
      others (meet o s (.commit collection id)).2 := by
  rcases commit_cases s collection id with
    ⟨e, -, heq⟩ | ⟨t, hopen, ⟨hgone, heq⟩ | ⟨c, hc, heq⟩⟩
  · have heq : step o s (.commit collection id) = (.error e, s) := heq
    rw [meet_of_error heq]
    exact h.refused (idle_error collection) rfl rfl rfl
  · have heq : step o s (.commit collection id) = (.error _, _) := heq
    rw [meet_of_error heq]
    obtain ⟨rfl, hsame, huncommitted, -⟩ :=
      h.staged_of_open hopening hunique hopen
    exact .shut id (List.mem_append_left _ hopening) hsame
      ((idle_error collection).uncommitted huncommitted)
        (openTransaction_ne_ok rfl fun h => by cases h)
  · have heq : step o s (.commit collection id) = (.ok (), _) := heq
    rw [meet_of_ok heq]
    obtain ⟨rfl, hsame, -, hissued⟩ := h.staged_of_open hopening hunique hopen
    refine .committed id number c (gatheredIn posted)
      (List.mem_append_left _ hopening)
      (List.mem_append_right _ (List.mem_singleton_self _))
        (hsame.symm.trans hc) hall
      ?_ hissued ?_ (openTransaction_ne_ok rfl fun h => by cases h)
    · exact (Dictionary.get?_put ..).trans (if_pos rfl)
    · intro _
      exact (Dictionary.get?_put ..).trans (if_pos rfl)

/-- What was gathered is thrown away, and later batches find the transaction
closed. -/
theorem serve_abort (h : Ledger collection records before posted others s)
    (hopening :
      Move.receive 0 (.createTransaction collection) (.ok id) ∈ posted)
    (hunique : ∀ id', Move.receive 0 (.createTransaction collection) (.ok id')
      ∈ posted → id' = id) :
    Ledger collection records before
      (posted
        ++ [.receive number (.abort collection id)
          (meet o s (.abort collection id)).1])
      others (meet o s (.abort collection id)).2 := by
  rcases abort_cases s collection id with ⟨e, -, heq⟩ | ⟨t, hopen, heq⟩
  · have heq : step o s (.abort collection id) = (.error e, s) := heq
    rw [meet_of_error heq]
    exact h.refused (idle_error collection) rfl rfl rfl
  · have heq : step o s (.abort collection id) = (.ok (), _) := heq
    rw [meet_of_ok heq]
    obtain ⟨rfl, hsame, huncommitted, -⟩ :=
      h.staged_of_open hopening hunique hopen
    refine .shut id (List.mem_append_left _ hopening) hsame
      (huncommitted.concat ?_)
      (openTransaction_ne_ok rfl fun h => by cases h)
    intro number name id hmove
    cases hmove

end opened

end Ledger

end Upload

end KnnOracle
