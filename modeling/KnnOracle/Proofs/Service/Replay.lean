/-
What searches see is a replay.

`Event` is what can matter later of a call that was granted: a collection
was made, a transaction was opened, records were uploaded into one, or one
was committed. `replay` says from the events alone what is in a collection:
beginning with nothing when it was made, each commit since then applies,
one by one, what was uploaded into the transaction since it was opened.

`serveAll_replays` says that this is what a service holds after any
requests. The invariant behind it (`Recorded`) ties the records in the
collections and in the open transactions to the events; each handler that
does anything has one event, and the rest are frames.
-/
import KnnOracle.Proofs.Service.Requests

namespace KnnOracle

/-- Whether a call only looks at data. An index is no data. -/
def Call.looks : Call → Bool
  | .getCollection _ | .createIndex _ | .fetch _ | .search _ => true
  | _ => false

namespace Service

-- ================================================================ events

/-- What can matter later of a call that was granted. -/
inductive Event where
  | created (collection : String)
  | opened (transaction : TransactionId)
  | uploaded (transaction : TransactionId) (records : List Record)
  | committed (collection : String) (transaction : TransactionId)
  | aborted (transaction : TransactionId)

/-- The event of a call with its answer. -/
def eventOf? : (call : Call) → Except Refusal call.Answer → Option Event
  | .createCollection r, .ok _ => some (.created r.name)
  | .createTransaction _, .ok id => some (.opened id)
  | .upsert batch, .ok _ => some (.uploaded batch.transaction batch.records)
  | .commit collection id, .ok _ => some (.committed collection id)
  | .abort _ id, .ok _ => some (.aborted id)
  | _, _ => none

/-- A state and the events that led to it, the latest first. -/
structure History where
  events : List Event
  state : State

/-- The history after a call. -/
def History.after (o : Options) (h : History) (call : Call) : History :=
  ⟨(eventOf? call (step o h.state call).1).toList ++ h.events,
    (step o h.state call).2⟩

/-- The history of calls. -/
def history (o : Options) (calls : List Call) : History :=
  calls.foldl (History.after o) ⟨[], .initial⟩

-- ================================================================ replay

/-- Applies a record to a list: it replaces the one with its id, or is
appended. -/
def apply (list : List Record) (r : Record) : List Record :=
  if r.id ∈ list.map Record.id then list.map fun x => if x.id = r.id then
    r else x
  else list ++ [r]

/-- What was uploaded into a transaction since it was opened. -/
def uploaded (id : TransactionId) : List Event → List Record
  | [] => []
  | .opened other :: older => if other = id then [] else uploaded id older
  | .uploaded other records :: older =>
      if other = id then uploaded id older ++ records else uploaded id older
  | .created _ :: older => uploaded id older
  | .committed _ _ :: older => uploaded id older
  | .aborted _ :: older => uploaded id older

/-- What the commits since a collection was made put into it. -/
def replay (name : String) : List Event → List Record
  | [] => []
  | .created other :: older => if other = name then [] else replay name older
  | .committed other id :: older =>
      if other = name then (uploaded id older).foldl apply (replay name older)
      else replay name older
  | .opened _ :: older => replay name older
  | .uploaded _ _ :: older => replay name older
  | .aborted _ :: older => replay name older

/-- A transaction was opened, and neither committed nor aborted since. -/
def Live (id : TransactionId) : List Event → Prop
  | [] => False
  | .opened other :: older => other = id ∨ Live id older
  | .committed _ other :: older => other ≠ id ∧ Live id older
  | .aborted other :: older => other ≠ id ∧ Live id older
  | .created _ :: older => Live id older
  | .uploaded _ _ :: older => Live id older

/-- Placing a record is applying it, as long as ids are distinct: the former
replaces the first record with its id, the latter all of them. -/
private theorem place_eq_apply {list : List Record} (r : Record)
    (h : (list.map Record.id).Nodup) :
    place r list = apply list r := by
  induction list with
  | nil => rfl
  | cons old rest ih =>
      obtain ⟨hold, hrest⟩ := List.nodup_cons.mp h
      have ih := ih hrest
      unfold place
      by_cases hid : old.id = r.id
      · -- no other record has the id
        have hothers : rest.map (fun x => if x.id = r.id then r else x)
            = rest := by
          refine (List.map_congr_left fun x hx => if_neg fun hxr =>
            hold ?_).trans
            (List.map_id rest)
          rw [hid, ← hxr]
          exact List.mem_map_of_mem hx
        have hmem : r.id ∈ (old :: rest).map Record.id := by simp [hid]
        rw [if_pos hid, apply, if_pos hmem, List.map_cons, if_pos hid, hothers]
      · rw [if_neg hid, ih]
        have hiff : r.id ∈ (old :: rest).map Record.id ↔
            r.id ∈ rest.map Record.id := by
          simp [Ne.symm hid]
        by_cases hmem : r.id ∈ rest.map Record.id
        · rw [apply, if_pos hmem, apply, if_pos (hiff.mpr hmem), List.map_cons,
            if_neg hid]
        · rw [apply, if_neg hmem, apply, if_neg (mt hiff.mp hmem),
            List.cons_append]

/-- Placing records is applying them one by one, since ids stay distinct in
between. -/
private theorem placeAll_eq_foldl {list : List Record} (records : List Record)
    (h : (list.map Record.id).Nodup) :
    placeAll records list = records.foldl apply list := by
  induction records generalizing list with
  | nil => rfl
  | cons r rest ih =>
      show placeAll rest (place r list) = rest.foldl apply (apply list r)
      rw [ih (nodup_place h), place_eq_apply r h]

-- ============================================================ provenance

private theorem mem_apply {list : List Record} {r x : Record}
    (h : x ∈ apply list r) :
    x = r ∨ x ∈ list := by
  unfold apply at h
  split at h
  · obtain ⟨y, hy, heq⟩ := List.mem_map.mp h
    split at heq
    · exact .inl heq.symm
    · exact .inr (heq ▸ hy)
  · rcases List.mem_append.mp h with hx | hx
    · exact .inr hx
    · exact .inl (List.mem_singleton.mp hx)

private theorem mem_foldl_apply {records list : List Record} {x : Record}
    (h : x ∈ records.foldl apply list) : x ∈ records ∨ x ∈ list := by
  induction records generalizing list with
  | nil => exact .inr h
  | cons r rest ih =>
      rcases ih h with hx | hx
      · exact .inl (List.mem_cons_of_mem _ hx)
      · rcases mem_apply hx with rfl | hx
        · exact .inl (List.mem_cons_self ..)
        · exact .inr hx

/-- A record was uploaded into a transaction, which was not opened since. -/
def UploadedIn (events : List Event) (id : TransactionId) (r : Record) :
    Prop :=
  ∃ later records before, events = later ++ .uploaded id records :: before ∧
    r ∈ records ∧ .opened id ∉ later

/-- What was uploaded into a transaction stays so, unless the transaction is
opened once more. -/
theorem UploadedIn.cons {events : List Event} {id : TransactionId} {r : Record}
    {e : Event} (h : UploadedIn events id r) (he : e ≠ .opened id) :
    UploadedIn (e :: events) id r := by
  obtain ⟨later, records, before, rfl, hr, hopened⟩ := h
  refine ⟨e :: later, records, before, rfl, hr, ?_⟩
  rw [List.mem_cons, not_or]
  exact ⟨he.symm, hopened⟩

/-- What is replayed for a transaction was uploaded into it, so that it can be
traced to a request. -/
private theorem uploadedIn_of_mem {events : List Event} {id : TransactionId}
    {r : Record} (h : r ∈ uploaded id events) : UploadedIn events id r := by
  induction events with
  | nil => cases h
  | cons e older ih =>
      cases e with
      | created _ => exact (ih h).cons nofun
      | committed _ _ => exact (ih h).cons nofun
      | aborted _ => exact (ih h).cons nofun
      | opened other =>
          unfold uploaded at h
          split at h
          · cases h
          · next hne => exact (ih h).cons fun heq => hne (Event.opened.inj heq)
      | uploaded other records =>
          unfold uploaded at h
          split at h
          · next heq =>
              subst heq
              rcases List.mem_append.mp h with hr | hr
              · exact (ih hr).cons nofun
              · exact ⟨[], records, older, rfl, hr, nofun⟩
          · exact (ih h).cons nofun

/-- A transaction was committed to a collection, which was not made since,
and the record had been uploaded into it. -/
def CommittedIn (events : List Event) (name : String) (r : Record) : Prop :=
  ∃ later id before, events = later ++ .committed name id :: before ∧
    .created name ∉ later ∧ UploadedIn before id r

/-- What was committed to a collection stays so, unless the collection is made
once more. -/
theorem CommittedIn.cons {events : List Event} {name : String} {r : Record}
    {e : Event} (h : CommittedIn events name r) (he : e ≠ .created name) :
    CommittedIn (e :: events) name r := by
  obtain ⟨later, id, before, rfl, hcreated, hr⟩ := h
  refine ⟨e :: later, id, before, rfl, ?_, hr⟩
  rw [List.mem_cons, not_or]
  exact ⟨he.symm, hcreated⟩

/-- What is replayed for a collection was committed to it, so that it can be
traced to a request. -/
private theorem committedIn_of_mem {events : List Event} {name : String}
    {r : Record} (h : r ∈ replay name events) : CommittedIn events name r := by
  induction events with
  | nil => cases h
  | cons e older ih =>
      cases e with
      | opened _ => exact (ih h).cons nofun
      | uploaded _ _ => exact (ih h).cons nofun
      | aborted _ => exact (ih h).cons nofun
      | created other =>
          unfold replay at h
          split at h
          · cases h
          · next hne =>
              exact (ih h).cons fun heq => hne (Event.created.inj heq)
      | committed other id =>
          unfold replay at h
          split at h
          · next heq =>
              subst heq
              rcases mem_foldl_apply h with hr | hr
              · exact ⟨[], id, older, rfl, nofun, uploadedIn_of_mem hr⟩
              · exact (ih hr).cons nofun
          · exact (ih h).cons nofun

-- ========================================================= the invariant

/-- What a service holds is what its events say. -/
structure Recorded (h : History) : Prop where
  distinct : h.state.Distinct
  committed : ∀ name c, h.state.collections.get? name = some c →
    c.committed = replay name h.events
  opened : ∀ id : TransactionId, ∀ t,
    h.state.transactions.get? id.text = some t →
    t.status = .opened → t.staged = uploaded id h.events ∧ Live id h.events
  commits : ∀ name id older, .committed name id :: older <:+ h.events →
    Live id older

namespace Recorded

variable {o : Options} {events : List Event} {s after : State}

/-- Data that is as it was is recorded as it was. -/
theorem of_sameData (h : Recorded ⟨events, s⟩) (hsame : s.SameData after) :
    Recorded ⟨events, after⟩ := by
  obtain ⟨hcollections, htransactions, -⟩ := hsame
  obtain ⟨hdistinct, hcommitted, hopened, hcommits⟩ := h
  refine ⟨fun name c hc => ?_, fun name c hc => ?_, fun id t ht => ?_,
    hcommits⟩
  · exact hdistinct name c (hcollections ▸ hc)
  · exact hcommitted name c (hcollections ▸ hc)
  · exact hopened id t (htransactions ▸ ht)

/-- An event that is no commit adds none, so the commits so far keep what was
said of them. -/
theorem commits_cons {e : Event} (h : Recorded ⟨events, s⟩)
    (he : ∀ name id, e ≠ .committed name id) (name : String)
    (id : TransactionId) (older : List Event)
    (hsuffix : .committed name id :: older <:+ e :: events) :
    Live id older := by
  rcases List.suffix_cons_iff.mp hsuffix with heq | hsuffix
  · exact absurd (List.cons.inj heq).1.symm (he name id)
  · exact h.commits name id older hsuffix

/-- The other transactions stay as they are when one is closed. -/
theorem opened_put {id : TransactionId} {t : Transaction}
    (h : Recorded ⟨events, s⟩) (hclosed : t.status ≠ .opened)
    (other : TransactionId) (t' : Transaction)
    (ht : (s.transactions.put id.text t).get? other.text = some t')
    (hopened : t'.status = .opened) :
    id ≠ other ∧ t'.staged = uploaded other events ∧ Live other events := by
  rw [Dictionary.get?_put] at ht
  split at ht
  · cases ht
    exact absurd hopened hclosed
  · next hne =>
      exact ⟨fun heq => hne (congrArg TransactionId.text heq),
        h.opened other t' ht hopened⟩

/-- A transaction may be closed without an event. This is the refused commit of
one whose collection is gone: nothing of it is ever replayed. -/
theorem close {id : TransactionId} {t : Transaction} (h : Recorded ⟨events, s⟩)
    (hclosed : t.status ≠ .opened) :
    Recorded
      ⟨events, { s with transactions := s.transactions.put id.text t }⟩ :=
  ⟨h.distinct, h.committed,
    fun other t' ht hopened => (h.opened_put hclosed other t' ht hopened).2,
      h.commits⟩

/-- A collection that was made is recorded: it is empty, and so is its
replay. -/
theorem createCollection {r : CollectionRequest} (h : Recorded ⟨events, s⟩) :
    Recorded ⟨.created r.name :: events, { s with
      collections :=
        s.collections.put r.name
          ⟨r.dense.dimension, [], r.dense.autoCreateIndex⟩ }⟩ := by
  refine ⟨h.distinct.put rfl List.nodup_nil, fun name c hc => ?_, h.opened,
    h.commits_cons nofun⟩
  have hc := (Dictionary.get?_put ..).symm.trans hc
  show c.committed = if r.name = name then [] else replay name events
  split at hc
  · next heq =>
      cases hc
      rw [if_pos heq]
  · next hne =>
      rw [if_neg hne]
      exact h.committed name c hc

/-- A deletion needs no event, for nothing is said of a collection that is
gone. -/
theorem deleteCollection {name : String} (h : Recorded ⟨events, s⟩) :
    Recorded ⟨events, { s with collections := s.collections.erase name }⟩ :=
  ⟨fun other c hc => h.distinct other c (Dictionary.get?_of_erase hc),
    fun other c hc => h.committed other c (Dictionary.get?_of_erase hc),
      h.opened, h.commits⟩

/-- An index needs no event, as it changes no records. -/
theorem createIndex {name : String} {c : Collection} (h : Recorded ⟨events, s⟩)
    (hc : s.collections.get? name = some c) :
    Recorded ⟨events,
      { s with
        collections :=
          s.collections.put name { c with hasIndex := true } }⟩ := by
  refine ⟨h.distinct.put rfl (h.distinct name c hc), fun other c' hc' => ?_,
    h.opened, h.commits⟩
  have hput := (Dictionary.get?_put ..).symm.trans hc'
  split at hput
  · next heq =>
      cases hput
      exact h.committed other c (heq ▸ hc)
  · exact h.committed other c' hput

/-- A transaction that was opened is recorded: nothing is staged in it, and
nothing was uploaded since. -/
theorem createTransaction {collection : String} {id : TransactionId}
    {counter : UInt64} (h : Recorded ⟨events, s⟩) :
    Recorded ⟨.opened id :: events, { s with
      counter
      transactions :=
        s.transactions.put id.text ⟨collection, [], .opened⟩ }⟩ := by
  refine ⟨h.distinct, h.committed, fun other t ht hopened => ?_,
    h.commits_cons nofun⟩
  have ht := (Dictionary.get?_put ..).symm.trans ht
  show t.staged = (if id = other then [] else uploaded other events) ∧
    (id = other ∨ Live other events)
  by_cases heq : id = other
  · rw [if_pos (congrArg TransactionId.text heq)] at ht
    cases ht
    rw [if_pos heq]
    exact ⟨rfl, .inl heq⟩
  · have htext : id.text ≠ other.text :=
      fun h => heq (congrArg TransactionId.mk h)
    rw [if_neg htext] at ht
    rw [if_neg heq]
    exact And.imp_right .inr (h.opened other t ht hopened)

/-- A batch that was staged is recorded under its transaction. -/
theorem upsert {batch : Batch} {t : Transaction} (h : Recorded ⟨events, s⟩)
    (hopen : openTransaction s batch.collection batch.transaction.text
      = .ok t) :
    Recorded ⟨.uploaded batch.transaction batch.records :: events, { s with
      upsertCalls := s.upsertCalls + 1
      transactions :=
        s.transactions.put batch.transaction.text
          { t with staged := t.staged ++ batch.records } }⟩ := by
  obtain ⟨hget, -, hstatus⟩ := openTransaction_eq_ok.mp hopen
  refine ⟨h.distinct, h.committed, fun other t' ht hopened => ?_,
    h.commits_cons nofun⟩
  have ht := (Dictionary.get?_put ..).symm.trans ht
  show t'.staged
    = (if batch.transaction = other then uploaded other events ++ batch.records
    else uploaded other events) ∧ Live other events
  by_cases heq : batch.transaction = other
  · subst heq
    obtain ⟨hstaged, hlive⟩ := h.opened _ t hget hstatus
    rw [if_pos rfl] at ht ⊢
    cases ht
    exact ⟨congrArg (· ++ batch.records) hstaged, hlive⟩
  · have htext : batch.transaction.text ≠ other.text := fun h =>
      heq (congrArg TransactionId.mk h)
    rw [if_neg htext] at ht
    rw [if_neg heq]
    exact h.opened other t' ht hopened

/-- A commit is recorded: what was staged is what was uploaded, and it is
placed as the replay applies it. -/
theorem commit {collection : String} {id : TransactionId} {t : Transaction}
    {c : Collection} (h : Recorded ⟨events, s⟩)
    (hopen : openTransaction s collection id.text = .ok t)
    (hc : s.collections.get? collection = some c) :
    Recorded ⟨.committed collection id :: events, { s with
      transactions :=
        s.transactions.put id.text { t with
          staged := [], status := .committed }
      collections :=
        s.collections.put collection { c with
          committed := placeAll t.staged c.committed } }⟩ := by
  obtain ⟨hget, -, hstatus⟩ := openTransaction_eq_ok.mp hopen
  obtain ⟨hstaged, hlive⟩ := h.opened id t hget hstatus
  have hnodup := h.distinct collection c hc
  refine ⟨h.distinct.put rfl (nodup_placeAll hnodup), fun name c' hc' => ?_,
    fun other t' ht hopened => ?_, fun name other older hsuffix => ?_⟩
  · have hput := (Dictionary.get?_put ..).symm.trans hc'
    show c'.committed = if collection = name
      then (uploaded id events).foldl apply (replay name events)
        else replay name events
    split at hput
    · next heq =>
        cases hput
        rw [if_pos heq, ← hstaged, ← h.committed name c (heq ▸ hc)]
        exact placeAll_eq_foldl t.staged hnodup
    · next hne =>
        rw [if_neg hne]
        exact h.committed name c' hput
  · have hclosed : TransactionStatus.committed ≠ .opened := by decide
    obtain ⟨hne, hsame, hlive'⟩ := h.opened_put hclosed other t' ht hopened
    exact ⟨hsame, hne, hlive'⟩
  · rcases List.suffix_cons_iff.mp hsuffix with heq | hsuffix
    · cases heq
      exact hlive
    · exact h.commits name other older hsuffix

/-- An abort is recorded. What was uploaded is not committed, as the
transaction is not open any more. -/
theorem abort {id : TransactionId} {t : Transaction} (h : Recorded ⟨events, s⟩)
    (hclosed : t.status ≠ .opened) :
    Recorded ⟨.aborted id :: events,
      { s with transactions := s.transactions.put id.text t }⟩ := by
  refine ⟨h.distinct, h.committed, fun other t' ht hopened => ?_,
    h.commits_cons nofun⟩
  obtain ⟨hne, hsame, hlive⟩ := h.opened_put hclosed other t' ht hopened
  exact ⟨hsame, hne, hlive⟩

/-- A call that is granted leaves its event, and what is held then is what the
events say. -/
theorem after_call {h : History} (hrecorded : Recorded h) (call : Call) :
    Recorded (h.after o call) := by
  obtain ⟨events, s⟩ := h
  have hsame : Recorded ⟨events, s⟩ := hrecorded
  show Recorded ⟨(eventOf? call (step o s call).1).toList ++ events,
    (step o s call).2⟩
  cases call with
  | createCollection r =>
      rw [show step o s (.createCollection r)
        = Service.createCollection s r from rfl]
      rcases createCollection_cases s r with ⟨e, heq⟩ | ⟨answer, heq⟩
      · rw [heq]
        exact hsame
      · rw [heq]
        exact hrecorded.createCollection
  | deleteCollection name =>
      rw [show step o s (.deleteCollection name)
        = Service.deleteCollection s name from rfl]
      rcases deleteCollection_cases s name with ⟨e, heq⟩ | heq
      · rw [heq]
        exact hsame
      · rw [heq]
        exact hrecorded.deleteCollection
  | createIndex r =>
      rw [show step o s (.createIndex r) = Service.createIndex s r from rfl]
      rcases createIndex_cases s r with ⟨e, heq⟩ | ⟨answer, c, hc, heq⟩
      · rw [heq]
        exact hsame
      · rw [heq]
        exact hrecorded.createIndex hc
  | createTransaction collection =>
      rw [show step o s (.createTransaction collection)
        = Service.createTransaction s collection from rfl]
      rcases createTransaction_cases s collection with ⟨e, heq⟩ | ⟨c, -, heq⟩
      · rw [heq]
        exact hsame
      · rw [heq]
        exact hrecorded.createTransaction
  | upsert batch =>
      rw [show step o s (.upsert batch) = Service.upsert o s batch from rfl]
      rcases upsert_cases o s batch with ⟨e, heq⟩ | ⟨t, hopen, heq⟩
      · rw [heq]
        exact hrecorded.of_sameData ⟨rfl, rfl, rfl⟩
      · rw [heq]
        exact hrecorded.upsert hopen
  | commit collection id =>
      rw [show step o s (.commit collection id)
        = Service.commit s collection id from rfl]
      rcases commit_cases s collection id with ⟨e, -, heq⟩ |
        ⟨t, hopen, ⟨-, heq⟩ | ⟨c, hc, heq⟩⟩
      · rw [heq]
        exact hsame
      · rw [heq]
        exact hrecorded.close nofun
      · rw [heq]
        exact hrecorded.commit hopen hc
  | abort collection id =>
      rw [show step o s (.abort collection id)
        = Service.abort s collection id from rfl]
      rcases abort_cases s collection id with ⟨e, -, heq⟩ | ⟨t, hopen, heq⟩
      · rw [heq]
        exact hsame
      · rw [heq]
        exact hrecorded.abort nofun
  | getCollection name =>
      rw [step_of_writes?_eq_none o s rfl]
      exact hsame
  | fetch r =>
      rw [step_of_writes?_eq_none o s rfl]
      exact hsame
  | search r =>
      rw [step_of_writes?_eq_none o s rfl]
      exact hsame

end Recorded

/-- Every history is recorded, by induction over its calls. -/
theorem recorded_history (o : Options) (calls : List Call) :
    Recorded (history o calls) := by
  suffices hall : ∀ h, Recorded h →
      Recorded (calls.foldl (History.after o) h) from
    hall ⟨[], .initial⟩ ⟨nofun, nofun, nofun,
      fun _ _ _ h => nomatch List.suffix_nil.mp h⟩
  induction calls with
  | nil => exact fun h hrecorded => hrecorded
  | cons call rest ih =>
      exact fun h hrecorded => ih _ (hrecorded.after_call call)

-- ==================================================== the main statement

/-- A call that looks leaves the records in the collections, and the
transactions, alone. -/
theorem step_of_looks {o : Options} {s : State} {call : Call}
    (hcall : call.looks = true) :
    (∀ name, ((step o s call).2.collections.get? name).map Collection.committed
      = (s.collections.get? name).map Collection.committed) ∧
    (step o s call).2.transactions = s.transactions := by
  cases call with
  | createIndex r =>
      rw [show step o s (.createIndex r) = createIndex s r from rfl]
      rcases createIndex_cases s r with ⟨e, heq⟩ | ⟨answer, c, hc, heq⟩
      · rw [heq]
        exact ⟨fun _ => rfl, rfl⟩
      · rw [heq]
        refine ⟨fun name => ?_, rfl⟩
        show ((s.collections.put r.collection _).get? name).map _ = _
        rw [Dictionary.get?_put]
        split
        · next hname =>
            rw [← hname, hc]
            rfl
        · rfl
  | getCollection name =>
      rw [step_of_writes?_eq_none o s rfl]
      exact ⟨fun _ => rfl, rfl⟩
  | fetch r =>
      rw [step_of_writes?_eq_none o s rfl]
      exact ⟨fun _ => rfl, rfl⟩
  | search r =>
      rw [step_of_writes?_eq_none o s rfl]
      exact ⟨fun _ => rfl, rfl⟩
  | _ => cases hcall

/-- What a service holds is the replay of the events that led there. -/
structure Replays (o : Options) (h : History) : Prop where
  /-- The records in a collection are those that were committed. -/
  committed : ∀ name c, h.state.collections.get? name = some c →
    c.committed = replay name h.events
  /-- No id repeats. -/
  distinct : ∀ name c, h.state.collections.get? name = some c →
    (c.committed.map Record.id).Nodup
  /-- What can be seen was uploaded into a transaction and then committed. -/
  provenance : ∀ name c r, h.state.collections.get? name = some c →
    r ∈ c.committed →
    CommittedIn h.events name r
  /-- A transaction that was committed was open. -/
  commits : ∀ name id older, .committed name id :: older <:+ h.events →
    Live id older
  /-- Looking changes neither what can be seen nor what is staged. -/
  looked : ∀ call : Call, call.looks = true →
    (∀ name, ((step o h.state call).2.collections.get? name).map
      Collection.committed
      = (h.state.collections.get? name).map Collection.committed) ∧
    (step o h.state call).2.transactions = h.state.transactions

/-- The state of the history is that of the service, so what is said of
histories is said of requests. -/
private theorem state_history (o : Options) (requests : List Http.Request) :
    (history o (requests.filterMap (callIn? o))).state
      = serveAll o requests := by
  suffices hall : ∀ h : History,
      ((requests.filterMap (callIn? o)).foldl (History.after o) h).state
        = requests.foldl (fun s r => (serve o r s).2) h.state from hall
          ⟨[], .initial⟩
  induction requests with
  | nil => exact fun h => rfl
  | cons r rest ih =>
      intro h
      cases hcall : callIn? o r with
      | none =>
          obtain ⟨response, heq, -⟩ := serve_of_none h.state hcall
          rw [List.filterMap_cons_none hcall, ih h, List.foldl_cons, heq]
      | some call =>
          rw [List.filterMap_cons_some hcall, List.foldl_cons, ih,
            List.foldl_cons, serve_snd hcall]
          rfl

/-- After any requests, what a service holds is the replay of the events
of the calls that they made. -/
theorem serveAll_replays (o : Options) (requests : List Http.Request) :
    (history o (requests.filterMap (callIn? o))).state = serveAll o requests ∧
    Replays o (history o (requests.filterMap (callIn? o))) := by
  have h := recorded_history o (requests.filterMap (callIn? o))
  refine ⟨state_history o requests, h.committed, h.distinct,
    fun name c r hc hr => ?_, h.commits, fun call hcall => step_of_looks hcall⟩
  rw [h.committed name c hc] at hr
  exact committedIn_of_mem hr

end Service

end KnnOracle
