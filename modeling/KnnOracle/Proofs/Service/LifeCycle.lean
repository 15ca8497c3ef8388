/-
The life of a transaction.

A transaction is opened under the next number of the service, stays with
the collection it was opened on, and is closed at most once. What closes
it takes its records away, and from then on nobody can use it: whoever
names it is refused, and the refusal changes nothing.

# The argument

`Effect.transactions_cases` says all that a call can do to the
transactions: nothing, open one under the next number, or put something
in the place of one that is open. Three invariants follow from it, each
by one step: the names in use are the numbers up to the counter
(`Numbered`), what is closed is empty (`Emptied`), and every transaction
becomes what it may (`Transaction.Becomes`). The first carries the third,
since a number that was in use would let a new transaction take the place
of an old one. That happens when the counter has gone all the way around,
so runs are held to fewer transactions than there are numbers.

`serveAll_lifeCycle` puts them together for every run of requests.
-/
import Mathlib.Data.List.Induction
import KnnOracle.Proofs.Service.Requests

namespace KnnOracle

/-- The transaction that a call names. -/
def Call.transaction? : Call → Option String
  | .upsert batch => some batch.transaction.text
  | .commit _ id => some id.text
  | .abort _ id => some id.text
  | _ => none

namespace Service

open Http

-- ======================================================== what can happen

/-- All that a call can do to the transactions: nothing, open one under the
next number, or change an open one without moving it to another collection. -/
theorem Effect.transactions_cases {s after : State} {call : Call}
    (h : Effect s call after) :
    (after.transactions = s.transactions ∧ after.counter = s.counter) ∨
    (∃ collection, call = .createTransaction collection ∧
      after.counter = s.counter + 1 ∧
      after.transactions =
        s.transactions.put (toString (s.counter + 1).toNat)
          ⟨collection, [], .opened⟩) ∨
    ∃ name t t', s.transactions.get? name = some t ∧ t.status = .opened ∧
      t'.collection = t.collection ∧ (t'.status ≠ .opened → t'.staged = []) ∧
      after.transactions = s.transactions.put name t' ∧
      after.counter = s.counter := by
  cases h with
  | unchanged _ _ htransactions hcounter =>
      exact .inl ⟨htransactions, hcounter⟩
  | createCollection r c _ => exact .inl ⟨rfl, rfl⟩
  | deleteCollection name => exact .inl ⟨rfl, rfl⟩
  | createIndex r c _ => exact .inl ⟨rfl, rfl⟩
  | createTransaction collection =>
      exact .inr (.inl ⟨collection, rfl, rfl, rfl⟩)
  | upsert batch t hopen =>
      obtain ⟨hget, -, hstatus⟩ := Service.openTransaction_eq_ok.mp hopen
      exact .inr
        (.inr ⟨_, t, { t with staged := t.staged ++ batch.records }, hget,
        hstatus, rfl, fun hclosed => absurd hstatus hclosed, rfl, rfl⟩)
  | lose collection transaction t hopen =>
      obtain ⟨hget, -, hstatus⟩ := Service.openTransaction_eq_ok.mp hopen
      exact .inr
        (.inr ⟨_, t, { t with staged := [], status := .committed }, hget,
        hstatus, rfl, fun _ => rfl, rfl, rfl⟩)
  | commit collection transaction t c hopen _ =>
      obtain ⟨hget, -, hstatus⟩ := Service.openTransaction_eq_ok.mp hopen
      exact .inr
        (.inr ⟨_, t, { t with staged := [], status := .committed }, hget,
        hstatus, rfl, fun _ => rfl, rfl, rfl⟩)
  | abort collection transaction t hopen =>
      obtain ⟨hget, -, hstatus⟩ := Service.openTransaction_eq_ok.mp hopen
      exact .inr
        (.inr ⟨_, t, { t with staged := [], status := .aborted }, hget,
        hstatus, rfl, fun _ => rfl, rfl, rfl⟩)

-- ========================================================== the invariants

/-- The counter stands at `n`, and every name in use is one of the numbers
from one to `n`. -/
structure Numbered (s : State) (n : Nat) : Prop where
  counter : s.counter.toNat = n
  names : ∀ name t, s.transactions.get? name = some t → ∃ i, 0 < i ∧ i ≤ n ∧
    name = toString i

/-- What is closed holds no records. -/
def Emptied (s : State) : Prop :=
  ∀ name t, s.transactions.get? name = some t → t.status ≠ .opened →
    t.staged = []

/-- What can become of a transaction. -/
structure Transaction.Becomes (t t' : Transaction) : Prop where
  /-- It stays with its collection. -/
  collection : t'.collection = t.collection
  /-- If it was not open, it stays as it is. -/
  closed : t.status ≠ .opened → t' = t

theorem Transaction.Becomes.refl (t : Transaction) : t.Becomes t :=
  ⟨rfl, fun _ => rfl⟩

/-- What a transaction becomes step by step it becomes in all, so that a run
needs no more than its steps. -/
theorem Transaction.Becomes.trans {t t' t'' : Transaction} (h : t.Becomes t')
    (h' : t'.Becomes t'') : t.Becomes t'' := by
  refine ⟨h'.collection.trans h.collection, fun hclosed => ?_⟩
  have hsame := h.closed hclosed
  subst hsame
  exact h'.closed hclosed

/-- The only ways that a status can go: it stays, or an open one is committed
or aborted. -/
theorem Transaction.Becomes.status {t t' : Transaction} (h : t.Becomes t') :
    t'.status = t.status ∨
      t.status = .opened ∧
        (t'.status = .committed ∨ t'.status = .aborted) := by
  by_cases hopened : t.status = .opened
  · cases hstatus : t'.status with
    | opened => exact .inl hopened.symm
    | committed => exact .inr ⟨hopened, .inl rfl⟩
    | aborted => exact .inr ⟨hopened, .inr rfl⟩
  · rw [h.closed hopened]
    exact .inl rfl

section step

variable {s after : State} {call : Call} {n : Nat}

/-- The number that comes next, as long as there is one. After 2⁶⁴ creations
the counter would begin anew. -/
theorem Numbered.toNat_next (h : Numbered s n) (hroom : n + 1 < 2 ^ 64) :
    (s.counter + 1).toNat = n + 1 := by
  have hone : (1 : UInt64).toNat = 1 := rfl
  rw [UInt64.toNat_add, hone, h.counter]
  omega

/-- The next number is not in use, so opening a transaction overwrites none. -/
theorem Numbered.get?_next (h : Numbered s n) (hroom : n + 1 < 2 ^ 64) :
    s.transactions.get? (toString (s.counter + 1).toNat) = none := by
  cases hget : s.transactions.get? (toString (s.counter + 1).toNat) with
  | none => rfl
  | some t =>
      obtain ⟨i, -, hle, hname⟩ := h.names _ t hget
      rw [h.toNat_next hroom] at hname
      have heq : n + 1 = i := Nat.repr_injective hname
      omega

theorem counter_succ_ne (s : State) : s.counter + 1 ≠ s.counter := by
  intro heq
  have hmoved := congrArg UInt64.toNat heq
  have hone : (1 : UInt64).toNat = 1 := rfl
  have hlt := s.counter.toNat_lt
  rw [UInt64.toNat_add, hone] at hmoved
  omega

/-- A call that opens no transaction keeps the numbers. -/
theorem Numbered.keep (h : Numbered s n) (heffect : Effect s call after)
    (hcounter : after.counter = s.counter) : Numbered after n := by
  refine ⟨by rw [hcounter]; exact h.counter, fun name t ht => ?_⟩
  rcases heffect.transactions_cases with ⟨htransactions, -⟩ |
    ⟨collection, -, hnext, -⟩ |
    ⟨key, t₀, t', hget, -, -, -, htransactions, -⟩
  · rw [htransactions] at ht
    exact h.names name t ht
  · exact absurd (hnext.symm.trans hcounter) (counter_succ_ne s)
  · rw [htransactions, Dictionary.get?_put] at ht
    by_cases hname : key = name
    · subst hname
      exact h.names key t₀ hget
    · rw [if_neg hname] at ht
      exact h.names name t ht

/-- A transaction that is opened takes the next number, and so the numbers in
use stay an interval. -/
theorem Numbered.next {collection : String} (h : Numbered s n)
    (hroom : n + 1 < 2 ^ 64) (hcounter : after.counter = s.counter + 1)
    (htransactions : after.transactions
      = s.transactions.put (toString (s.counter + 1).toNat)
        ⟨collection, [], .opened⟩) :
    Numbered after (n + 1) := by
  refine ⟨by rw [hcounter]; exact h.toNat_next hroom, fun name t ht => ?_⟩
  rw [htransactions, Dictionary.get?_put, h.toNat_next hroom] at ht
  by_cases hname : toString (n + 1) = name
  · exact ⟨n + 1, Nat.succ_pos n, Nat.le_refl _, hname.symm⟩
  · rw [if_neg hname] at ht
    obtain ⟨i, hpos, hle, hi⟩ := h.names name t ht
    exact ⟨i, hpos, Nat.le_succ_of_le hle, hi⟩

/-- No call leaves records in what is closed. -/
theorem Emptied.step (h : Emptied s) (heffect : Effect s call after) :
    Emptied after := by
  intro name t ht hclosed
  rcases heffect.transactions_cases with ⟨htransactions, -⟩ |
    ⟨collection, -, -, htransactions⟩ |
    ⟨key, t₀, t', -, -, -, hstaged, htransactions, -⟩
  · rw [htransactions] at ht
    exact h name t ht hclosed
  · rw [htransactions, Dictionary.get?_put] at ht
    split at ht
    · cases ht
      rfl
    · exact h name t ht hclosed
  · rw [htransactions, Dictionary.get?_put] at ht
    split at ht
    · cases ht
      exact hstaged hclosed
    · exact h name t ht hclosed

/-- What a call makes of a transaction is what may become of it. Putting the
next one under a new number is what `Numbered` is needed for. -/
theorem Numbered.becomes (h : Numbered s n) (heffect : Effect s call after)
    (hroom : after.counter = s.counter ∨ n + 1 < 2 ^ 64) {name : String}
    {t : Transaction} (ht : s.transactions.get? name = some t) :
    ∃ t', after.transactions.get? name = some t' ∧ t.Becomes t' := by
  rcases heffect.transactions_cases with ⟨htransactions, -⟩ |
    ⟨collection, -, hnext, htransactions⟩ |
    ⟨key, t₀, t', hget, hopened, hcollection, -, htransactions, -⟩
  · rw [htransactions]
    exact ⟨t, ht, .refl t⟩
  · have hroom : n + 1 < 2 ^ 64 :=
      hroom.resolve_left fun hsame =>
        counter_succ_ne s (hnext.symm.trans hsame)
    have hfree := h.get?_next hroom
    rw [htransactions, Dictionary.get?_put]
    by_cases hname : toString (s.counter + 1).toNat = name
    · rw [hname, ht] at hfree
      cases hfree
    · rw [if_neg hname]
      exact ⟨t, ht, .refl t⟩
  · rw [htransactions, Dictionary.get?_put]
    by_cases hname : key = name
    · subst hname
      rw [ht] at hget
      cases hget
      rw [if_pos rfl]
      exact ⟨t', rfl, hcollection, fun hclosed => absurd hopened hclosed⟩
    · rw [if_neg hname]
      exact ⟨t, ht, .refl t⟩

end step

-- ============================================================ after closing

theorem openTransaction_of_closed {s : State} {name : String} {t : Transaction}
    (ht : s.transactions.get? name = some t) (hclosed : t.status ≠ .opened)
    (collection : String) :
    ∃ e, openTransaction s collection name = .error e := by
  cases hopen : openTransaction s collection name with
  | error e => exact ⟨e, rfl⟩
  | ok t' =>
      obtain ⟨hget, -, hopened⟩ := openTransaction_eq_ok.mp hopen
      rw [ht] at hget
      cases hget
      exact absurd hopened hclosed

/-- Whoever names what is closed is refused, and nothing changes: each call on
a transaction asks for an open one before it does anything. -/
theorem step_of_closed {o : Options} {s : State} {call : Call} {name : String}
    {t : Transaction} (hcall : call.transaction? = some name)
    (ht : s.transactions.get? name = some t) (hclosed : t.status ≠ .opened) :
    ∃ e s', step o s call = (.error e, s') ∧ s.SameData s' := by
  have herror := openTransaction_of_closed ht hclosed
  cases call with
  | upsert batch =>
      cases hcall
      obtain ⟨e, he⟩ := herror batch.collection
      rcases upsert_cases o s batch with ⟨e', heq⟩ | ⟨t', hopen, -⟩
      · exact ⟨e', _, heq, rfl, rfl, rfl⟩
      · rw [he] at hopen
        cases hopen
  | commit collection id =>
      cases hcall
      obtain ⟨e, he⟩ := herror collection
      rcases commit_cases s collection id with ⟨e', -, heq⟩ | ⟨t', hopen, -⟩
      · exact ⟨e', _, heq, rfl, rfl, rfl⟩
      · rw [he] at hopen
        cases hopen
  | abort collection id =>
      cases hcall
      obtain ⟨e, he⟩ := herror collection
      rcases abort_cases s collection id with ⟨e', -, heq⟩ | ⟨t', hopen, -⟩
      · exact ⟨e', _, heq, rfl, rfl, rfl⟩
      · rw [he] at hopen
        cases hopen
  | _ => cases hcall

/-- The transaction that the path to an endpoint names. -/
def Endpoint.transaction? : Endpoint → Option String
  | .upsert _ transaction => Text.percentDecode? transaction
  | .commit _ transaction => Text.percentDecode? transaction
  | .abort _ transaction => Text.percentDecode? transaction
  | _ => none

/-- The transaction that a request is to upload into, to commit or to
abort, whatever else is right or wrong about the request. -/
def transactionIn? (r : Request) : Option String :=
  (Endpoint.ofTarget? r.target).bind Endpoint.transaction?

private theorem percentDecode?_of_transactionOf?
    {collection transaction : List Char} {name : String} {id : TransactionId}
    (h : transactionOf? collection transaction = .ok (name, id)) :
    Text.percentDecode? transaction = some id.text := by
  unfold transactionOf? nameOf? at h
  cases hcollection : Text.percentDecode? collection with
  | none =>
      rw [hcollection] at h
      cases h
  | some other =>
      cases htransaction : Text.percentDecode? transaction with
      | none =>
          rw [hcollection, htransaction] at h
          cases h
      | some text =>
          rw [hcollection, htransaction] at h
          cases h
          rfl

/-- An endpoint of a transaction makes a call on the transaction that its path
names, whatever the method and the body make of the rest. -/
private theorem transaction?_of_transactionOf? {r : Request}
    {collection transaction : List Char}
    {f : String × TransactionId → Except Response Call} {call : Call}
    {name : String}
    (hf : ∀ names call, f names = .ok call →
      call.transaction? = some names.2.text)
    (hcall :
      (if r.method = .post then transactionOf? collection transaction >>= f
      else .error methodNotAllowed) = .ok call)
    (hname : Text.percentDecode? transaction = some name) :
    call.transaction? = some name := by
  split at hcall
  · cases hnames : transactionOf? collection transaction with
    | error response =>
        rw [hnames] at hcall
        cases hcall
    | ok names =>
        rw [hnames] at hcall
        rw [hf names call hcall,
          ← percentDecode?_of_transactionOf? hnames, hname]
  · cases hcall

/-- A call names the transaction that its request names. -/
theorem transaction?_of_callOf? {r : Request} {endpoint : Endpoint}
    {call : Call} {name : String} (hcall : callOf? r endpoint = .ok call)
    (hname : endpoint.transaction? = some name) :
    call.transaction? = some name := by
  cases endpoint with
  | upsert collection transaction =>
      refine transaction?_of_transactionOf? (fun names call' h => ?_)
        hcall hname
      cases hbody : bodyOf? UploadRequest.ofJson? r with
      | error response =>
          rw [hbody] at h
          cases h
      | ok body =>
          rw [hbody] at h
          cases h
          rfl
  | commit collection transaction =>
      refine transaction?_of_transactionOf? (fun names call' h => ?_)
        hcall hname
      cases h
      rfl
  | abort collection transaction =>
      refine transaction?_of_transactionOf? (fun names call' h => ?_)
        hcall hname
      cases h
      rfl
  | _ => cases hname

/-- A request that names what is closed is refused, and nothing changes. It may
be turned away before it makes a call. -/
theorem serve_of_closed {o : Options} {s : State} {r : Request} {name : String}
    {t : Transaction} (hname : transactionIn? r = some name)
    (ht : s.transactions.get? name = some t) (hclosed : t.status ≠ .opened) :
    (serve o r s).1.isSuccess = false ∧ s.SameData (serve o r s).2 := by
  cases hcall : callIn? o r with
  | none =>
      obtain ⟨response, heq, -⟩ := serve_of_none s hcall
      refine ⟨?_, by rw [heq]; exact ⟨rfl, rfl, rfl⟩⟩
      rw [← Bool.not_eq_true, isSuccess_serve]
      intro ⟨call, answer, s', hcall', hok⟩
      cases hcall.symm.trans hcall'
  | some call =>
      obtain ⟨endpoint, hendpoint, hnamed⟩ := Option.bind_eq_some_iff.mp hname
      have hcalls : call.transaction? = some name := by
        unfold callIn? at hcall
        split at hcall
        · rw [hendpoint, Option.bind_some] at hcall
          cases hof : callOf? r endpoint with
          | error response =>
              rw [hof] at hcall
              cases hcall
          | ok call' =>
              rw [hof] at hcall
              cases hcall
              exact transaction?_of_callOf? hof hnamed
        · cases hcall
      obtain ⟨e, s', hstep, hsame⟩ := step_of_closed (o := o) hcalls ht hclosed
      refine ⟨?_, by rw [serve_snd hcall, hstep]; exact hsame⟩
      rw [← Bool.not_eq_true, isSuccess_serve]
      intro ⟨call', answer, s'', hcall', hok⟩
      cases hcall.symm.trans hcall'
      rw [hstep] at hok
      cases hok

-- ============================================================ runs

/-- The id that a request is handed, if it opens a transaction. -/
def handed? (o : Options) (r : Request) (s : State) : Option TransactionId :=
  match callIn? o r with
  | some (.createTransaction collection) =>
      (step o s (.createTransaction collection)).1.toOption
  | _ => none

/-- The ids that requests are handed, one after the other. -/
def handedFrom (o : Options) (s : State) : List Request → List TransactionId
  | [] => []
  | r :: rest => (handed? o r s).toList ++ handedFrom o (serve o r s).2 rest

/-- The ids that are handed out in a run from the beginning. -/
def handedOut (o : Options) (requests : List Request) : List TransactionId :=
  handedFrom o .initial requests

section runs

variable {o : Options} {r : Request} {s : State}

private theorem serveAll_concat (o : Options) (requests : List Request)
    (r : Request) :
    serveAll o (requests ++ [r]) = (serve o r (serveAll o requests)).2 := by
  unfold serveAll
  rw [List.foldl_append]
  rfl

/-- The ids that are handed out by more requests are those of the first ones
and those of the rest. -/
private theorem handedOut_append (o : Options) (earlier later : List Request) :
    handedOut o (earlier ++ later)
      = handedOut o earlier ++ handedFrom o (serveAll o earlier) later := by
  suffices key : ∀ s, handedFrom o s (earlier ++ later)
      = handedFrom o s earlier
      ++ handedFrom o (earlier.foldl (fun s r => (serve o r s).2) s) later
        from key .initial
  induction earlier with
  | nil => exact fun s => rfl
  | cons first rest ih =>
      intro s
      rw [List.cons_append, handedFrom, ih, handedFrom, List.append_assoc]
      rfl

private theorem handedOut_concat (o : Options) (requests : List Request)
    (r : Request) :
    handedOut o (requests ++ [r])
      = handedOut o requests
        ++ (handed? o r (serveAll o requests)).toList := by
  rw [handedOut_append, handedFrom, handedFrom, List.append_nil]

/-- A request has the effect of its call, or none. -/
theorem serve_effect (o : Options) (r : Request) (s : State) :
    (serve o r s).2 = s ∧ callIn? o r = none ∨
    ∃ call, callIn? o r = some call ∧ Effect s call (serve o r s).2 := by
  cases hcall : callIn? o r with
  | none =>
      obtain ⟨response, heq, -⟩ := serve_of_none s hcall
      exact .inl ⟨by rw [heq], rfl⟩
  | some call =>
      refine .inr ⟨call, rfl, ?_⟩
      rw [serve_snd hcall]
      exact step_effect o s call

/-- A request that is handed an id is answered with it, and the id is the
next number, under which the transaction is open and empty. -/
theorem serve_of_handed {id : TransactionId} (h : handed? o r s = some id) :
    id.text = toString (s.counter + 1).toNat ∧
    (serve o r s).1 = jsonResponse (TransactionAnswer.toJson ⟨id⟩) ∧
    (serve o r s).2.counter = s.counter + 1 ∧
    ∃ collection, callIn? o r = some (.createTransaction collection) ∧
      (serve o r s).2.transactions
        = s.transactions.put id.text ⟨collection, [], .opened⟩ := by
  unfold handed? at h
  split at h
  · next collection hcall =>
      have hstep : step o s (.createTransaction collection)
        = createTransaction s collection := rfl
      rw [serve_of_some s hcall]
      rcases createTransaction_cases s collection with ⟨e, heq⟩ | ⟨c, -, heq⟩
      · rw [hstep, heq] at h
        cases h
      · rw [hstep, heq] at h ⊢
        cases h
        exact ⟨rfl, rfl, rfl, collection, hcall, rfl⟩
  · cases h

/-- A request that is handed none leaves the counter where it is. -/
theorem counter_of_not_handed (h : handed? o r s = none) :
    (serve o r s).2.counter = s.counter := by
  rcases serve_effect o r s with ⟨hsame, -⟩ | ⟨call, hcall, heffect⟩
  · rw [hsame]
  · rcases heffect.counter with hcounter | ⟨collection, rfl, -⟩
    · exact hcounter
    · rw [serve_snd hcall]
      unfold handed? at h
      rw [hcall] at h
      change (createTransaction s collection).1.toOption = none at h
      change (createTransaction s collection).2.counter = _
      rcases createTransaction_cases s collection with ⟨e, heq⟩ | ⟨c, -, heq⟩
      · rw [heq]
      · rw [heq] at h
        cases h

/-- As many numbers are in use as were handed out. The induction is on the
requests, with room for one more number as its bound. -/
theorem numbered_serveAll (requests : List Request)
    (hfew : (handedOut o requests).length < 2 ^ 64) :
    Numbered (serveAll o requests) (handedOut o requests).length := by
  induction requests using List.reverseRecOn with
  | nil => exact ⟨rfl, nofun⟩
  | append_singleton requests r ih =>
      rw [handedOut_concat, List.length_append] at hfew ⊢
      have ih := ih (by omega)
      rw [serveAll_concat]
      cases hhanded : handed? o r (serveAll o requests) with
      | none =>
          rcases serve_effect o r (serveAll o requests) with ⟨hsame, -⟩ |
            ⟨call, -, heffect⟩
          · rw [hsame]
            exact ih
          · exact ih.keep heffect (counter_of_not_handed hhanded)
      | some id =>
          rw [hhanded] at hfew
          obtain ⟨hid, -, hcounter, collection, -, htransactions⟩ :=
            serve_of_handed hhanded
          rw [hid] at htransactions
          exact ih.next hfew hcounter htransactions

/-- No closed transaction holds staged records, whatever was requested. -/
private theorem emptied_serveAll (o : Options) (requests : List Request) :
    Emptied (serveAll o requests) := by
  induction requests using List.reverseRecOn with
  | nil => exact nofun
  | append_singleton requests r ih =>
      rw [serveAll_concat]
      rcases serve_effect o r (serveAll o requests) with ⟨hsame, -⟩ |
        ⟨call, -, heffect⟩
      · rw [hsame]
        exact ih
      · exact ih.step heffect

/-- The ids that were handed out are the numbers from one on, so none was
handed out twice. -/
theorem handedOut_eq (requests : List Request)
    (hfew : (handedOut o requests).length < 2 ^ 64) :
    (handedOut o requests).map TransactionId.text
      = (List.range (handedOut o requests).length).map fun i =>
        toString (i + 1) := by
  induction requests using List.reverseRecOn with
  | nil => rfl
  | append_singleton requests r ih =>
      rw [handedOut_concat] at hfew ⊢
      rw [List.length_append] at hfew
      have hless : (handedOut o requests).length < 2 ^ 64 := by omega
      have ih := ih hless
      have hnumbered := numbered_serveAll requests hless
      cases hhanded : handed? o r (serveAll o requests) with
      | none => simpa using ih
      | some id =>
          rw [hhanded] at hfew
          have hid := (serve_of_handed hhanded).1
          rw [hnumbered.toNat_next hfew] at hid
          simp [List.range_succ, ih, hid]

/-- Over any further requests a transaction becomes only what it may. -/
theorem becomes_serveAll {earlier : List Request} (later : List Request)
    {name : String} {t : Transaction}
    (hfew : (handedOut o (earlier ++ later)).length < 2 ^ 64)
    (ht : (serveAll o earlier).transactions.get? name = some t) :
    ∃ t', (serveAll o (earlier ++ later)).transactions.get? name = some t' ∧
      t.Becomes t' := by
  induction later using List.reverseRecOn with
  | nil =>
      rw [List.append_nil]
      exact ⟨t, ht, .refl t⟩
  | append_singleton later r ih =>
      rw [← List.append_assoc] at hfew ⊢
      have hsplit := handedOut_concat o (earlier ++ later) r
      have hless : (handedOut o (earlier ++ later)).length < 2 ^ 64 := by
        rw [hsplit, List.length_append] at hfew
        omega
      obtain ⟨t', ht', hbecomes⟩ := ih hless
      rw [serveAll_concat]
      rcases serve_effect o r (serveAll o (earlier ++ later)) with ⟨hsame, -⟩ |
        ⟨call, -, heffect⟩
      · rw [hsame]
        exact ⟨t', ht', hbecomes⟩
      · have hroom : (serve o r (serveAll o (earlier ++ later))).2.counter
              = (serveAll o (earlier ++ later)).counter ∨
            (handedOut o (earlier ++ later)).length + 1 < 2 ^ 64 := by
          cases hhanded : handed? o r (serveAll o (earlier ++ later)) with
          | none => exact .inl (counter_of_not_handed hhanded)
          | some id =>
              rw [hsplit, hhanded] at hfew
              exact .inr (by simpa using hfew)
        obtain ⟨t'', ht'', hnext⟩ :=
          (numbered_serveAll _ hless).becomes heffect hroom ht'
        exact ⟨t'', ht'', hbecomes.trans hnext⟩

end runs

-- ==================================================== the main statement

/-- The life of the transactions in a run of requests. -/
structure LifeCycle (o : Options) (requests : List Request) : Prop where
  /-- The ids that are handed out are the numbers from one on. -/
  numbers : (handedOut o requests).map TransactionId.text
    = (List.range (handedOut o requests).length).map fun i => toString (i + 1)
  /-- None is handed out twice. -/
  nodup : (handedOut o requests).Nodup
  /-- Transactions have no other ids, whatever became of their collections. -/
  known : ∀ name t, (serveAll o requests).transactions.get? name = some t →
    ⟨name⟩ ∈ handedOut o requests
  /-- An id is handed out in the answer to a request. No transaction had it,
  and now an open one without records has it, on the collection asked for. -/
  opens : ∀ earlier r later id, requests = earlier ++ r :: later →
    handed? o r (serveAll o earlier) = some id →
    (serveAll o earlier).transactions.get? id.text = none ∧
    (serve o r (serveAll o earlier)).1
      = jsonResponse (TransactionAnswer.toJson ⟨id⟩) ∧
    ∃ collection, callIn? o r = some (.createTransaction collection) ∧
      (serve o r (serveAll o earlier)).2.transactions.get? id.text
        = some ⟨collection, [], .opened⟩
  /-- From then on a transaction keeps its collection. If it is open it may
  be committed or aborted; otherwise it stays as it is. -/
  becomes : ∀ earlier later name t, requests = earlier ++ later →
    (serveAll o earlier).transactions.get? name = some t →
    ∃ t', (serveAll o requests).transactions.get? name = some t' ∧
      t'.collection = t.collection ∧
      (t'.status = t.status ∨
        t.status = .opened ∧ (t'.status = .committed ∨ t'.status = .aborted)) ∧
      (t.status ≠ .opened → t' = t)
  /-- What is not open holds no records. -/
  emptied : ∀ name t, (serveAll o requests).transactions.get? name = some t →
    t.status ≠ .opened → t.staged = []
  /-- Whoever names it then is refused, and nothing changes. -/
  shut : ∀ name t r, (serveAll o requests).transactions.get? name = some t →
    t.status ≠ .opened → transactionIn? r = some name →
    (serve o r (serveAll o requests)).1.isSuccess = false ∧
    (serveAll o requests).SameData (serve o r (serveAll o requests)).2

/-- As long as there are fewer transactions than numbers, each has a fresh id,
stays with its collection, is closed once, holds nothing from then on, and
refuses whoever names it. -/
theorem serveAll_lifeCycle (o : Options) (requests : List Request)
    (hfew : (handedOut o requests).length < 2 ^ 64) :
    LifeCycle o requests := by
  have hnumbers := handedOut_eq requests hfew
  refine ⟨hnumbers, ?_, fun name t ht => ?_, ?_, ?_,
    emptied_serveAll o requests,
    fun name t r ht hclosed hname => serve_of_closed hname ht hclosed⟩
  · -- distinct numbers have distinct decimal forms
    refine List.Nodup.of_map TransactionId.text ?_
    rw [hnumbers]
    refine List.nodup_range.map fun i j heq => ?_
    exact Nat.succ.inj (Nat.repr_injective heq)
  · obtain ⟨i, hpos, hle, rfl⟩ :=
      (numbered_serveAll requests hfew).names name t ht
    have hmem : toString i ∈ (handedOut o requests).map
        TransactionId.text := by
      rw [hnumbers]
      refine List.mem_map.mpr ⟨i - 1, List.mem_range.mpr (by omega), ?_⟩
      show toString (i - 1 + 1) = toString i
      rw [Nat.sub_add_cancel hpos]
    obtain ⟨id, hid, heq⟩ := List.mem_map.mp hmem
    exact heq ▸ hid
  · intro earlier r later id hsplit hhanded
    obtain ⟨hid, hanswer, -, collection, hcall, htransactions⟩ :=
      serve_of_handed hhanded
    have hroom : (handedOut o earlier).length + 1 < 2 ^ 64 := by
      rw [hsplit, handedOut_append, handedFrom, hhanded] at hfew
      simp only [Option.toList_some, List.length_append, List.length_singleton]
        at hfew
      omega
    have hfree := (numbered_serveAll earlier (by omega)).get?_next hroom
    rw [← hid] at hfree
    refine ⟨hfree, hanswer, collection, hcall, ?_⟩
    rw [htransactions, Dictionary.get?_put_self]
  · intro earlier later name t hsplit ht
    subst hsplit
    obtain ⟨t', ht', hbecomes⟩ := becomes_serveAll later hfew ht
    exact ⟨t', ht', hbecomes.collection, hbecomes.status, hbecomes.closed⟩

-- A transaction gathers a record and loses it when it is committed, since
-- its collection is gone; then the collection is made anew, and another
-- transaction is opened on it.
namespace Reopened

def post (target body : String) : Request :=
  { method := .post, target, authorization? := none
    contentType? := some "application/json", body }

def collection : Request :=
  post "/vectordb/collections"
    "[\"A\",null,[true,false,1],[false,false],null,[null,null]]"

def transaction : Request := post "/vectordb/collections/A/transactions" ""

def upload : Request :=
  post "/vectordb/collections/A/transactions/1/upsert" "[[[1,[1]]]]"

def deletion : Request :=
  { method := .delete, target := "/vectordb/collections/A"
    authorization? := none, contentType? := none, body := "" }

def commit : Request := post "/vectordb/collections/A/transactions/1/commit" ""

def requests : List Request :=
  [collection, transaction, upload, deletion, commit, collection, transaction]

end Reopened

/-- The collection of a transaction is deleted. Its commit is refused and
closes it all the same, and a transaction that is opened later gets another
id. -/
theorem serveAll_lifeCycle_of_reopened :
    handedOut {} Reopened.requests = [⟨"1"⟩, ⟨"2"⟩] ∧
    ((serveAll {} Reopened.requests).transactions.get? "1").map
      (fun t => (t.collection, t.staged.length, t.status))
        = some ("A", 0, .committed) ∧
    (handedOut {} Reopened.requests).length < 2 ^ 64 ∧
    LifeCycle {} Reopened.requests := by
  have hhanded : handedOut {} Reopened.requests = [⟨"1"⟩, ⟨"2"⟩] := by
    decide +kernel
  have hfew : (handedOut {} Reopened.requests).length < 2 ^ 64 := by
    rw [hhanded]
    decide
  exact ⟨hhanded, by decide +kernel, hfew,
    serveAll_lifeCycle {} Reopened.requests hfew⟩

end Service

end KnnOracle
