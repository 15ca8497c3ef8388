/-
What a request does to a service.

A request that is admitted, routed and decoded makes one call, and the
service does what it does for that call. A request that is turned away
before makes none, and nothing happens. `callIn?` is the call of a
request, and `serve_of_some` and `serve_of_none` are the two cases;
whatever is said of calls is said of requests through them.

# Refusals

A response is an error exactly if the request made no call or its call
was refused (`isSuccess_serve`). A refused call has left everything as it
was, with the exception that `Effects` names: the commit of an open
transaction whose collection is gone. `serve_refused` states both halves,
so it says for every request whether its refusal left a trace.
-/
import KnnOracle.Proofs.Service.Effects
import KnnOracle.Service.Server

namespace KnnOracle.Service

open Http

-- ================================================= the call of a request

/-- The call that a request makes, if it gets so far. -/
def callIn? (o : Options) (r : Request) : Option Call :=
  if isAdmitted o r then
    (Endpoint.ofTarget? r.target).bind fun endpoint =>
      (callOf? r endpoint).toOption
  else none

/-- The service after requests, made one after the other from the
beginning. -/
def serveAll (o : Options) (requests : List Request) : State :=
  requests.foldl (fun s r => (serve o r s).2) .initial

-- ============================================================ turned away

/-- Where a decoding ends early, it ends with an error. -/
def Rejects {α : Type} (x : Except Response α) : Prop :=
  ∀ response, x = .error response → 400 ≤ response.status

namespace Rejects

variable {α β : Type}

theorem ok (a : α) : Rejects (.ok a : Except Response α) := by
  intro response h
  cases h

theorem error {response : Response} (h : 400 ≤ response.status) :
    Rejects (.error response : Except Response α) := by
  intro other heq
  cases heq
  exact h

theorem map {x : Except Response α} (hx : Rejects x) (f : α → β) :
    Rejects (x.map f) := by
  cases x with
  | error e => exact error (hx e rfl)
  | ok a => exact ok (f a)

theorem bind {x : Except Response α} {f : α → Except Response β}
    (hx : Rejects x) (hf : ∀ a, Rejects (f a)) : Rejects (x >>= f) := by
  cases x with
  | error e => exact error (hx e rfl)
  | ok a => exact hf a

private theorem ite {p : Prop} [Decidable p] {x y : Except Response α}
    (hx : Rejects x) (hy : Rejects y) : Rejects (if p then x else y) := by
  split
  · exact hx
  · exact hy

/-- A name that cannot be decoded is a bad request. -/
theorem nameOf? (label : String) (raw : List Char) :
    Rejects (nameOf? label raw) := by
  unfold Service.nameOf?
  split
  · exact ok _
  · exact error (Nat.le_refl 400)

/-- A body of another media type, one that is too long, one that is no JSON and
one that does not decode are errors, each with a status of its own. -/
theorem bodyOf? (decoder : Json.Tree → Option α) (r : Request) :
    Rejects (bodyOf? decoder r) := by
  unfold Service.bodyOf?
  refine ite (error (by decide)) (ite (error (by decide)) ?_)
  split
  · exact error (by decide)
  · split
    · exact ok _
    · exact error (by decide)

/-- A path whose names cannot be decoded is a bad request. -/
theorem transactionOf? (collection transaction : List Char) :
    Rejects (transactionOf? collection transaction) :=
  (nameOf? _ _).bind fun _ => (nameOf? _ _).bind fun _ => ok _

/-- What cannot be decoded is turned away with an error, so that it can be told
from what was granted. -/
theorem callOf? (r : Request) (endpoint : Endpoint) :
    Rejects (callOf? r endpoint) := by
  have hmethod : Rejects (.error methodNotAllowed : Except Response Call) :=
    error (by decide)
  cases endpoint with
  | collections => exact ite ((bodyOf? _ r).map _) hmethod
  | collection name =>
      unfold Service.callOf?
      dsimp only
      split
      · exact (nameOf? _ _).map _
      · exact (nameOf? _ _).map _
      · exact hmethod
  | indexes => exact ite ((bodyOf? _ r).map _) hmethod
  | transactions name => exact ite ((nameOf? _ _).map _) hmethod
  | upsert name transaction =>
      exact ite ((transactionOf? _ _).bind fun _ => (bodyOf? _ r).bind fun _ =>
        ok _) hmethod
  | commit name transaction =>
      exact ite ((transactionOf? _ _).bind fun _ => ok _) hmethod
  | abort name transaction =>
      exact ite ((transactionOf? _ _).bind fun _ => ok _) hmethod
  | search => exact ite ((bodyOf? _ r).map _) hmethod
  | fetch => exact ite ((bodyOf? _ r).map _) hmethod

end Rejects

-- ============================================================== the cases

section serve

variable {o : Options} {r : Request} {s : State} {call : Call}

/-- A request that makes no call is turned away, and nothing happens. -/
theorem serve_of_none (s : State) (h : callIn? o r = none) :
    ∃ response, serve o r s = (response, s) ∧ 400 ≤ response.status := by
  unfold callIn? at h
  unfold serve
  cases hadmitted : isAdmitted o r with
  | false => exact ⟨_, rfl, by decide⟩
  | true =>
      rw [hadmitted, if_pos rfl] at h
      cases hendpoint : Endpoint.ofTarget? r.target with
      | none => exact ⟨_, rfl, by decide⟩
      | some endpoint =>
          rw [hendpoint, Option.bind_some] at h
          cases hcall : callOf? r endpoint with
          | error response =>
              simp only [hcall]
              exact ⟨response, rfl, Rejects.callOf? r endpoint response hcall⟩
          | ok call =>
              rw [hcall] at h
              cases h

/-- A request that makes a call does what the call does. -/
theorem serve_of_some (s : State) (h : callIn? o r = some call) :
    serve o r s = (match step o s call with
      | (.ok answer, s) => (responseOf call answer, s)
      | (.error e, s) => (textResponse e.status e.text, s)) := by
  unfold callIn? at h
  unfold serve
  cases hadmitted : isAdmitted o r with
  | false =>
      rw [hadmitted] at h
      cases h
  | true =>
      rw [hadmitted, if_pos rfl] at h
      cases hendpoint : Endpoint.ofTarget? r.target with
      | none =>
          rw [hendpoint] at h
          cases h
      | some endpoint =>
          rw [hendpoint, Option.bind_some] at h
          cases hcall : callOf? r endpoint with
          | error response =>
              rw [hcall] at h
              cases h
          | ok call' =>
              rw [hcall] at h
              cases h
              simp only [hcall]
              rfl

/-- A request does what its call does. The response is made of the answer and
changes nothing. -/
theorem serve_snd {s : State} (h : callIn? o r = some call) :
    (serve o r s).2 = (step o s call).2 := by
  rw [serve_of_some s h]
  split
  · next heq => rw [heq]
  · next heq => rw [heq]

end serve

-- ============================================================= refusals

private theorem status_of_openTransaction {s : State}
    {collection name : String} {e : Refusal}
    (h : openTransaction s collection name = .error e) : 400 ≤ e.status := by
  unfold openTransaction at h
  split at h
  · cases h
    decide
  · split at h
    · cases h
      decide
    · split at h
      · cases h
        show 400 ≤ 409
        decide
      · cases h

private theorem status_of_admitBatch {o : Options} {dimension : Nat}
    {records : List Record} {e : Refusal}
    (h : admitBatch o dimension records = .error e) : 400 ≤ e.status := by
  unfold admitBatch at h
  split at h
  · cases h
    exact Nat.le_refl 400
  · split at h
    · cases h
    · split at h
      · cases h
        show 400 ≤ 500
        decide
      · cases h

/-- A refused call is responded to with an error status, whatever the
reason. -/
theorem status_of_step {o : Options} {s s' : State} {call : Call} {e : Refusal}
    (h : step o s call = (.error e, s')) : 400 ≤ e.status := by
  have hmissing : ∀ what : String, 400 ≤ (notFound what).status := fun _ => by
    show 400 ≤ 404
    decide
  cases call with
  | createCollection r =>
      change createCollection s r = _ at h
      unfold createCollection at h
      split at h
      · cases h
        show 400 ≤ 409
        decide
      · cases h
  | getCollection name =>
      change getCollection s name = _ at h
      unfold getCollection at h
      split at h
      · cases h
        exact hmissing _
      · cases h
  | deleteCollection name =>
      change deleteCollection s name = _ at h
      unfold deleteCollection at h
      split at h
      · cases h
        exact hmissing _
      · cases h
  | createIndex r =>
      change createIndex s r = _ at h
      unfold createIndex at h
      split at h
      · cases h
        exact hmissing _
      · cases h
  | createTransaction collection =>
      change createTransaction s collection = _ at h
      unfold createTransaction at h
      split at h
      · cases h
        exact hmissing _
      · cases h
  | upsert batch =>
      change upsert o s batch = _ at h
      unfold upsert at h
      dsimp only at h
      split at h
      · cases h
        exact hmissing _
      · split at h
        · next hadmit =>
            cases h
            exact status_of_admitBatch hadmit
        · split at h
          · next hopen =>
              cases h
              exact status_of_openTransaction hopen
          · cases h
  | commit collection transaction =>
      rcases commit_cases s collection transaction with
        ⟨e', hopen, heq⟩ | ⟨t, -, ⟨-, heq⟩ | ⟨c, -, heq⟩⟩
      · cases heq.symm.trans h
        exact status_of_openTransaction hopen
      · cases heq.symm.trans h
        exact hmissing _
      · cases heq.symm.trans h
  | abort collection transaction =>
      rcases abort_cases s collection transaction with ⟨e', hopen, heq⟩ |
        ⟨t, -, heq⟩
      · cases heq.symm.trans h
        exact status_of_openTransaction hopen
      · cases heq.symm.trans h
  | fetch r =>
      change fetch o s r = _ at h
      unfold fetch at h
      split at h
      · cases h
        exact hmissing _
      · split at h
        · cases h
          exact hmissing _
        · cases h
  | search r =>
      change search o s r = _ at h
      unfold search at h
      split at h
      · cases h
        exact hmissing _
      · split at h
        · cases h
          exact Nat.le_refl 400
        · cases h

/-- A granted call is responded to with success. With the lemmas on refusals
this makes success and grant the same. -/
private theorem isSuccess_responseOf (call : Call) (answer : call.Answer) :
    (responseOf call answer).isSuccess = true := by
  cases call <;> rfl

/-- A response is no error exactly if the request made a call and the call was
granted. -/
theorem isSuccess_serve {o : Options} {r : Request} {s : State} :
    (serve o r s).1.isSuccess = true ↔
      ∃ call answer s', callIn? o r = some call ∧
        step o s call = (.ok answer, s') := by
  have herror : ∀ {response : Response}, 400 ≤ response.status →
      ¬response.isSuccess = true := by
    intro response hstatus hsuccess
    rw [Response.isSuccess, Bool.and_eq_true, decide_eq_true_eq,
      decide_eq_true_eq] at hsuccess
    omega
  cases hcall : callIn? o r with
  | none =>
      obtain ⟨response, heq, hstatus⟩ := serve_of_none s hcall
      rw [heq]
      refine iff_of_false (herror hstatus) ?_
      rintro ⟨call, answer, s', hsome, -⟩
      cases hsome
  | some call =>
      rw [serve_of_some s hcall]
      cases hstep : step o s call with
      | mk result s' =>
          cases result with
          | ok answer =>
              exact iff_of_true (isSuccess_responseOf call answer)
                ⟨call, answer, s', rfl, hstep⟩
          | error e =>
              refine iff_of_false (herror (status_of_step hstep)) ?_
              rintro ⟨call', answer, s'', hsome, hok⟩
              cases hsome
              rw [hstep] at hok
              cases hok

-- ========================================================== what they leave

/-- Two states hold the same collections, transactions and counter. The
number of attempts to upload may differ. -/
def State.SameData (s s' : State) : Prop :=
  s'.collections = s.collections ∧ s'.transactions = s.transactions ∧
    s'.counter = s.counter

/-- The service is told to carry out an open transaction whose collection
is gone. -/
def CommitsOrphan (s : State) (call : Call) : Prop :=
  ∃ collection id t, call = .commit collection id ∧
    openTransaction s collection id.text = .ok t ∧
      s.collections.get? collection = none

/-- What is left of a transaction that was committed for nothing: it is
closed and empty. -/
def State.closing (s : State) (id : TransactionId) (t : Transaction) : State :=
  { s with
    transactions :=
      s.transactions.put id.text { t with
        staged := [], status := .committed } }

/-- Closing an open transaction changes data: this is the trace that the
refused commit leaves. -/
private theorem not_sameData_closing {s : State} {collection : String}
    {id : TransactionId} {t : Transaction}
    (hopen : openTransaction s collection id.text = .ok t) :
    ¬s.SameData (s.closing id t) := by
  rintro ⟨-, htransactions, -⟩
  obtain ⟨hget, -, hstatus⟩ := openTransaction_eq_ok.mp hopen
  have hclosed : (s.closing id t).transactions.get? id.text
      = some { t with staged := [], status := .committed } :=
    Dictionary.get?_put_self ..
  rw [htransactions, hget] at hclosed
  have hboth : t.status = .committed :=
    congrArg Transaction.status (Option.some.inj hclosed)
  rw [hstatus] at hboth
  cases hboth

/-- A refused call leaves the data alone, or is the commit of an open
transaction whose collection is gone, which closes the transaction. -/
theorem step_refused {o : Options} {s s' : State} {call : Call} {e : Refusal}
    (h : step o s call = (.error e, s')) :
    (¬CommitsOrphan s call ∧ s.SameData s') ∨
    ∃ collection id t, call = .commit collection id ∧
      openTransaction s collection id.text = .ok t ∧
      s.collections.get? collection = none ∧
      e = notFound "collection" ∧ s' = s.closing id t := by
  have hsame : s.SameData s := ⟨rfl, rfl, rfl⟩
  have hother : (∀ collection id, call ≠ .commit collection id) →
      ¬CommitsOrphan s call := by
    rintro hne ⟨collection, id, -, hcall, -⟩
    exact hne collection id hcall
  cases call with
  | createCollection r =>
      refine .inl ⟨hother (by nofun), ?_⟩
      rcases createCollection_cases s r with ⟨e', heq⟩ | ⟨answer, heq⟩
      · cases heq.symm.trans h
        exact hsame
      · cases heq.symm.trans h
  | deleteCollection name =>
      refine .inl ⟨hother (by nofun), ?_⟩
      rcases deleteCollection_cases s name with ⟨e', heq⟩ | heq
      · cases heq.symm.trans h
        exact hsame
      · cases heq.symm.trans h
  | createIndex r =>
      refine .inl ⟨hother (by nofun), ?_⟩
      rcases createIndex_cases s r with ⟨e', heq⟩ | ⟨answer, c, -, heq⟩
      · cases heq.symm.trans h
        exact hsame
      · cases heq.symm.trans h
  | createTransaction collection =>
      refine .inl ⟨hother (by nofun), ?_⟩
      rcases createTransaction_cases s collection with ⟨e', heq⟩ | ⟨c, -, heq⟩
      · cases heq.symm.trans h
        exact hsame
      · cases heq.symm.trans h
  | upsert batch =>
      refine .inl ⟨hother (by nofun), ?_⟩
      rcases upsert_cases o s batch with ⟨e', heq⟩ | ⟨t, -, heq⟩
      · cases heq.symm.trans h
        exact ⟨rfl, rfl, rfl⟩
      · cases heq.symm.trans h
  | commit collection id =>
      rcases commit_cases s collection id with
        ⟨e', hopen, heq⟩ | ⟨t, hopen, ⟨hgone, heq⟩ | ⟨c, -, heq⟩⟩
      · cases heq.symm.trans h
        refine .inl ⟨?_, hsame⟩
        rintro ⟨_, _, t, hcall, hopen', -⟩
        cases hcall
        rw [hopen] at hopen'
        cases hopen'
      · cases heq.symm.trans h
        exact .inr ⟨collection, id, t, rfl, hopen, hgone, rfl, rfl⟩
      · cases heq.symm.trans h
  | abort collection id =>
      refine .inl ⟨hother (by nofun), ?_⟩
      rcases abort_cases s collection id with ⟨e', -, heq⟩ | ⟨t, -, heq⟩
      · cases heq.symm.trans h
        exact hsame
      · cases heq.symm.trans h
  | getCollection name =>
      have hstays : (step o s (.getCollection name)).2 = s :=
        step_of_writes?_eq_none o s rfl
      cases hstays.symm.trans (congrArg Prod.snd h)
      exact .inl ⟨hother (by nofun), hsame⟩
  | fetch r =>
      have hstays : (step o s (.fetch r)).2 = s :=
        step_of_writes?_eq_none o s rfl
      cases hstays.symm.trans (congrArg Prod.snd h)
      exact .inl ⟨hother (by nofun), hsame⟩
  | search r =>
      have hstays : (step o s (.search r)).2 = s :=
        step_of_writes?_eq_none o s rfl
      cases hstays.symm.trans (congrArg Prod.snd h)
      exact .inl ⟨hother (by nofun), hsame⟩

/-- What the refusal of a request leaves: the data as it was, unless the
request was to commit an open transaction whose collection is gone. Then
the answer is that the collection was not found, and the transaction is
closed and empty. -/
structure Refused (o : Options) (r : Request) (s : State) : Prop where
  /-- The data is as it was exactly if no such transaction was committed. -/
  sameData : s.SameData (serve o r s).2 ↔
    ¬∃ call, callIn? o r = some call ∧ CommitsOrphan s call
  /-- Such a transaction is lost. -/
  orphan : ∀ collection id t, callIn? o r = some (.commit collection id) →
    openTransaction s collection id.text = .ok t →
    s.collections.get? collection = none →
    serve o r s = (textResponse 404 "collection not found", s.closing id t)

/-- Every request that is answered with an error has left everything as it was,
unless it is the commit of an open transaction whose collection is gone. -/
theorem serve_refused (o : Options) (s : State) (r : Request)
    (h : (serve o r s).1.isSuccess = false) : Refused o r s := by
  cases hcall : callIn? o r with
  | none =>
      obtain ⟨response, heq, -⟩ := serve_of_none s hcall
      refine ⟨?_, fun collection id t hcommit => by
        rw [hcall] at hcommit; cases hcommit⟩
      rw [heq]
      refine iff_of_true ⟨rfl, rfl, rfl⟩ ?_
      rintro ⟨call, hsome, -⟩
      rw [hcall] at hsome
      cases hsome
  | some call =>
      cases hstep : step o s call with
      | mk result s' =>
          cases result with
          | ok answer =>
              rw [isSuccess_serve.mpr ⟨call, answer, s', hcall, hstep⟩] at h
              cases h
          | error e =>
              have hserve : serve o r s
                  = (textResponse e.status e.text, s') := by
                rw [serve_of_some s hcall, hstep]
              have hcommits : (∃ call', callIn? o r = some call' ∧
                  CommitsOrphan s call') ↔
                  CommitsOrphan s call := by
                rw [hcall]
                refine ⟨?_, fun horphan => ⟨call, rfl, horphan⟩⟩
                rintro ⟨call', hsome, horphan⟩
                cases hsome
                exact horphan
              rcases step_refused hstep with ⟨hnot, hsame⟩ |
                ⟨collection, id, t, rfl, hopen, hgone, rfl, rfl⟩
              · refine ⟨?_, fun collection id t hcommit hopen hgone => ?_⟩
                · rw [hserve, hcommits]
                  exact iff_of_true hsame hnot
                · cases hcall.symm.trans hcommit
                  exact absurd ⟨collection, id, t, rfl, hopen, hgone⟩ hnot
              · refine ⟨?_, fun collection' id' t' hcommit hopen' _ => ?_⟩
                · rw [hserve, hcommits]
                  exact iff_of_false (not_sameData_closing hopen)
                    (not_not_intro ⟨collection, id, t, rfl, hopen, hgone⟩)
                · cases hcall.symm.trans hcommit
                  rw [hopen] at hopen'
                  cases hopen'
                  exact hserve

-- A transaction is opened and given a record, and then its collection is
-- deleted.
namespace Orphan

def state : State :=
  [.createCollection (.ofDimension "A" none 1), .createTransaction "A",
    .upsert ⟨"A", ⟨"1"⟩, [⟨⟨1⟩, [1.0]⟩]⟩, .deleteCollection "A"].foldl
    (fun s call => (step {} s call).2) .initial

def commit : Request :=
  { method := .post, target := "/vectordb/collections/A/transactions/1/commit"
    authorization? := none, contentType? := none, body := "" }

private theorem reachable : Reachable {} state :=
  (((Reachable.initial.step _).step _).step _).step _

end Orphan

/-- The commit of an orphan is refused and leaves its trace. -/
theorem serve_refused_of_orphan :
    (serve {} Orphan.commit Orphan.state).1.isSuccess = false ∧
    Refused {} Orphan.commit Orphan.state := by
  have h : (serve {} Orphan.commit Orphan.state).1.isSuccess = false := by
    decide +kernel
  exact ⟨h, serve_refused {} Orphan.state Orphan.commit h⟩

/-- The commit of an orphan is refused, and yet its transaction, which was
open with a record in it, is closed and empty. -/
theorem serve_orphan_closes :
    Reachable {} Orphan.state ∧
    (serve {} Orphan.commit Orphan.state).1.status = 404 ∧
    (Orphan.state.transactions.get? "1").map
      (fun t => (t.status, t.staged.length))
      = some (.opened, 1) ∧
    ((serve {} Orphan.commit Orphan.state).2.transactions.get? "1").map
      (fun t => (t.status, t.staged.length)) = some (.committed, 0) ∧
    ¬Orphan.state.SameData (serve {} Orphan.commit Orphan.state).2 := by
  have hbefore : (Orphan.state.transactions.get? "1").map
      (fun t => (t.status, t.staged.length))
      = some (.opened, 1) := by decide +kernel
  have hafter :
      ((serve {} Orphan.commit Orphan.state).2.transactions.get? "1").map
      (fun t => (t.status, t.staged.length)) = some (.committed, 0) := by
    decide +kernel
  refine ⟨Orphan.reachable, by decide +kernel, hbefore, hafter, ?_⟩
  rintro ⟨-, htransactions, -⟩
  rw [htransactions, hbefore] at hafter
  cases hafter

end KnnOracle.Service
