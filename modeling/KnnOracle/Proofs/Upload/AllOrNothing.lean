/-
An upload happens as a whole, or not at all.

An upload that meets a service leaves the collection as it was until its
commit, and the commit brings all records at once. `AllOrNothing` states
this of every moment of every meeting, whatever the options of either
side, in whichever order calls reach the service, and whether or not the
calls that the upload has given up ever do.

# The route

Two accounts are kept of the same upload. What it sends and receives is
lawful (`lawful_of_path`), and what the service holds is in the ledger.
They meet in `ledger_of_meets`, by induction on the meeting: a call that
reaches the service was sent, so the law says what it is, and the ledger
says what becomes of it. The commit is where they need each other: the
law says that it is sent only when every batch was accepted, so what the
transaction has gathered is a rearrangement of the records
(`gatheredIn_perm`). As the ids of the records differ, the order in which
they arrived makes no difference to the collection as a map.
-/
import Mathlib.Data.List.Perm.Basic
import KnnOracle.Proofs.Upload.Ledger
import KnnOracle.Proofs.Upload.Protocol

namespace KnnOracle.Upload

open Service Exchange

-- ====================================================== the specification

/-- The records of a collection are, as a map, those from before
overwritten by the given ones. All else of the collection is as it
was. -/
structure Overwritten (collection : String) (records : List Record)
    (s s' : State) : Prop where
  present : ∃ c, s.collections.get? collection = some c ∧
    s'.collections.get? collection
      = some { c with committed := s'.committed collection }
  nodup : ((s'.committed collection).map Record.id).Nodup
  values : ∀ id, recordOf? id (s'.committed collection) =
    (recordOf? id records).or (recordOf? id (s.committed collection))

/-- An upload of records that met a service in a state `s` has come to
`m`. -/
structure AllOrNothing (o : Service.Options) (collection : String)
    (records : List Record) (s : State)
    (m : Meeting (Except CallError Summary)) : Prop where
  /-- Once it has returned a summary, the records are there, now and
  later, and the transaction is committed. It can be looked up until the
  counter, of 64 bits, has gone around and others were given its name. -/
  ok : ∀ summary, m.exchange.result? = some (.ok summary) →
    ∀ m', Relation.ReflTransGen (Meeting.Step o collection) m m' →
      Overwritten collection records s m'.service ∧
      (creations m'.others < 2 ^ 64 →
        m'.service.transactions.get? summary.transaction.text
          = some ⟨collection, [], .committed⟩)
  /-- Once it has returned an error, every collection that nobody else
  touched holds what it held before, now and later. -/
  error : ∀ e, m.exchange.result? = some (.error e) →
    ∀ m', Relation.ReflTransGen (Meeting.Step o collection) m m' →
      ∀ name, (∀ call ∈ m'.others, call.writes? ≠ some name) →
        m'.service.committed name = s.committed name
  /-- At any moment all that can be read of the collection is what could
  be read before, or the records are all there. -/
  visible : (∀ call, call.reads? = some collection →
      (step o m.service call).1 = (step o s call).1) ∨
    Overwritten collection records s m.service
  /-- Other collections that nobody else touched are as they were. -/
  elsewhere : ∀ name, name ≠ collection →
    (∀ call ∈ m.others, call.writes? ≠ some name) →
    m.service.collections.get? name = s.collections.get? name

-- ============================================================ the meeting

section meeting

variable {o : Service.Options} {collection : String} {records : List Record}
  {options : Options}
  {s : State} {m m' : Meeting (Except CallError Summary)}

/-- What the client has seen is the talk of its exchange, so that what is known
of an upload's paths holds of it. -/
private theorem lawful_of_sound
    (h : m.Sound (start collection records options)) :
    Lawful collection records options 0 m.seen m.exchange.result? := by
  obtain ⟨moves, hpath, htalk⟩ := h.path
  rw [← htalk]
  exact lawful_of_path hpath

/-- No number is under way twice, or under way and answered. So each call
reaches the service once at most. -/
theorem nodup_of_sound (h : m.Sound (start collection records options)) :
    ((m.underway ++ answeredIn m.posted).map Prod.fst).Nodup :=
  (h.sent.map Prod.fst).nodup_iff.mpr (lawful_of_sound h).numbers

/-- No call is answered twice. The numbers on the wire are distinct, and so are
those of the answers. -/
private theorem nodup_answeredIn
    (h : m.Sound (start collection records options)) :
    ((answeredIn m.posted).map Prod.fst).Nodup := by
  have hnodup := nodup_of_sound h
  rw [List.map_append] at hnodup
  exact hnodup.of_append_right

private theorem mem_callsIn_of_posted {number : Nat} {call : Call}
    {reply : Reply call} (h : m.Sound (start collection records options))
    (hmem : Move.receive number call reply ∈ m.posted) :
    (number, call) ∈ callsIn m.seen :=
  h.sent.subset (List.mem_append_right _ (mem_answeredIn_of_mem hmem))

/-- At most one transaction was opened, and all that is gathered is gathered in
it. -/
theorem opening_unique {id id' : TransactionId}
    (h : m.Sound (start collection records options))
    (hid : Move.receive 0 (.createTransaction collection) (.ok id) ∈ m.posted)
    (hid' : Move.receive 0 (.createTransaction collection) (.ok id')
      ∈ m.posted) :
    id' = id := by
  cases receive_inj (nodup_answeredIn h) hid hid'
  rfl

/-- A batch that is seen is one of those cut from the records, under the
transaction that was opened. -/
private theorem mem_batches_of_seen {id : TransactionId} {number : Nat}
    {batch : Batch} (h : m.Sound (start collection records options))
    (hopening :
      Move.receive 0 (.createTransaction collection) (.ok id) ∈ m.seen)
    (hmem : (number, batch) ∈ batchesIn m.seen) :
    (number, batch) ∈ Window.number 1
      (batches collection id records options.batchSize) :=
  ((lawful_of_sound h).sent id hopening).subset hmem

/-- When a commit was sent, the service has gathered all records: every batch
was answered well before, whatever the order. -/
theorem gatheredIn_perm {number : Nat} {id : TransactionId}
    (h : m.Sound (start collection records options))
    (hcommit : (number, .commit collection id) ∈ callsIn m.seen) :
    (gatheredIn m.posted).Perm records := by
  have hlawful := lawful_of_sound h
  obtain ⟨before, after, hsplit⟩ := List.append_of_mem (mem_callsIn.mp hcommit)
  obtain ⟨-, hopening, hsent, hgood⟩ :=
    hlawful.complete before number collection id after hsplit
  have hseen : ∀ {move}, move ∈ before → move ∈ m.seen := by
    intro move hmem
    rw [hsplit]
    exact List.mem_append_left _ hmem
  -- the accepted batches are the batches, in another order
  have hjobs : (acceptedIn m.posted).Perm
      (Window.number 1 (batches collection id records options.batchSize)) := by
    apply (List.perm_ext_iff_of_nodup ?_ ?_).mpr
    · rintro ⟨k, batch⟩
      constructor
      · intro hmem
        have hcall := mem_callsIn_of_posted h (mem_acceptedIn.mp hmem)
        exact mem_batches_of_seen h (hseen hopening)
          (mem_batchesIn.mpr (mem_callsIn.mp hcall))
      · intro hmem
        rw [← hsent] at hmem
        have hanswer := hgood _ hmem
        exact mem_acceptedIn.mpr
          (h.received _ _ _ (hseen (mem_answersIn.mp hanswer)))
    · exact ((acceptedIn_sublist m.posted).nodup (nodup_answeredIn h)).of_map _
    · exact (Window.nodup_number 1 _).of_map _
  let jobs := Window.number 1 (batches collection id records options.batchSize)
  have hall : jobs.flatMap (fun job => job.2.records) = records :=
    calc jobs.flatMap (fun job => job.2.records)
      _ = (jobs.map Prod.snd).flatMap Batch.records :=
        (List.flatMap_map ..).symm
      _ = (batches collection id records options.batchSize).flatMap
        Batch.records := by
            rw [Window.map_snd_number]
      _ = records := hlawful.whole id
  rw [← hall]
  exact hjobs.flatMap_right fun job => job.2.records

/-- A call on its way opens the transaction, or belongs to the one that was
opened. -/
theorem call_cases {number : Nat} {call : Call}
    (h : m.Sound (start collection records options))
    (hmem : (number, call) ∈ callsIn m.seen) :
    (number, call) = (0, .createTransaction collection) ∨
    ∃ id, Move.receive 0 (.createTransaction collection) (.ok id) ∈ m.posted ∧
      ((∃ batch, call = .upsert batch ∧ batch.collection = collection ∧
        batch.transaction = id) ∨
        call = .commit collection id ∨ call = .abort collection id) := by
  rcases (lawful_of_sound h).calls number call hmem with heq |
    ⟨id, hopening, hcall⟩
  · exact Or.inl heq
  refine Or.inr ⟨id, h.received _ _ _ hopening, ?_⟩
  rcases hcall with hbatch | hcall
  · obtain ⟨⟨number', batch⟩, hjob, heq⟩ := List.mem_map.mp hbatch
    cases heq
    obtain ⟨i, -, hi⟩ :=
      Window.mem_number.mp (mem_batches_of_seen h hopening hjob)
    obtain ⟨piece, -, rfl⟩ := List.mem_map.mp (List.mem_of_getElem? hi)
    exact Or.inl ⟨_, rfl, rfl, rfl⟩
  · exact Or.inr hcall

/-- The upload writes to its own collection alone. -/
private theorem writes?_of_seen {number : Nat} {call : Call}
    (h : m.Sound (start collection records options))
    (hmem : (number, call) ∈ callsIn m.seen) :
    call.writes? = some collection := by
  rcases call_cases h hmem with heq |
    ⟨id, -, ⟨batch, rfl, hcollection, -⟩ | rfl | rfl⟩
  · cases heq
    rfl
  · exact congrArg some hcollection
  · rfl
  · rfl

/-- Before the opening was answered nothing was gathered. -/
theorem gatheredIn_eq_nil (h : m.Sound (start collection records options))
    (hfirst : ∀ reply,
      Move.receive 0 (.createTransaction collection) reply ∉ m.posted) :
    gatheredIn m.posted = [] := by
  have hnone : acceptedIn m.posted = [] := by
    apply List.eq_nil_iff_forall_not_mem.mpr
    rintro ⟨number, batch⟩ hmem
    rcases call_cases h (mem_callsIn_of_posted h (mem_acceptedIn.mp hmem)) with
      heq | ⟨id, hopening, -⟩
    · cases heq
    · exact hfirst _ hopening
  unfold gatheredIn
  rw [hnone]
  rfl

/-- In every meeting the service is where the ledger says. The induction is
on the steps of the meeting; a call that is served late is the interesting
case. -/
theorem ledger_of_meets
    (h : Meets o collection (start collection records options) s m) :
    Ledger collection records (s.collections.get? collection) m.posted m.others
      m.service := by
  induction h with
  | refl =>
      refine .unopened ?_ rfl ?_
      · intro id hmem
        cases hmem
      · intro number name id hmem
        cases hmem
  | @tail m m' hmeets hstep ih =>
      have hsound : m.Sound (start collection records options) :=
        Meets.sound hmeets
      cases hstep with
      | think _ _ => exact ih
      | send _ => exact ih
      | receive _ _ => exact ih
      | @other call hcall =>
          have heffect := step_effect o m.service call
          rw [← meet_snd] at heffect
          exact ih.other heffect hcall
      | @serve before after number call hunderway =>
          have hmem : (number, call) ∈ m.underway := by
            rw [hunderway]
            exact List.mem_append_right _ (List.mem_cons_self ..)
          have hseen : (number, call) ∈ callsIn m.seen :=
            hsound.sent.subset (List.mem_append_left _ hmem)
          rcases call_cases hsound hseen with
            heq | ⟨id, hopening, ⟨batch, rfl, hcollection, hid⟩ | rfl | rfl⟩
          · cases heq
            -- the opening is under way, so it was not answered
            have hfirst : ∀ reply,
                Move.receive 0 (.createTransaction collection) reply
                  ∉ m.posted := by
              intro reply hposted
              have hnodup := nodup_of_sound hsound
              rw [List.map_append, List.nodup_append] at hnodup
              exact hnodup.2.2 0 (List.mem_map.mpr ⟨_, hmem, rfl⟩) 0
                (List.mem_map.mpr ⟨_, mem_answeredIn_of_mem hposted, rfl⟩) rfl
            exact ih.serve_createTransaction hfirst
              (gatheredIn_eq_nil hsound hfirst)
          · exact ih.serve_upsert hopening
              (fun _ => opening_unique hsound hopening)
              hcollection hid
          · exact ih.serve_commit hopening
              (fun _ => opening_unique hsound hopening)
              (gatheredIn_perm hsound hseen)
          · exact ih.serve_abort hopening
              (fun _ => opening_unique hsound hopening)

/-- Other collections stay as they are as long as the other parties leave them
alone, for the upload writes to its own. -/
private theorem elsewhere_of_meets {name : String} (hname : name ≠ collection)
    (h : Meets o collection (start collection records options) s m)
    (hothers : ∀ call ∈ m.others, call.writes? ≠ some name) :
    m.service.collections.get? name = s.collections.get? name := by
  induction h with
  | refl => rfl
  | @tail m m' hmeets hstep ih =>
      have hsound : m.Sound (start collection records options) :=
        Meets.sound hmeets
      cases hstep with
      | think _ _ => exact ih hothers
      | send _ => exact ih hothers
      | receive _ _ => exact ih hothers
      | other _ =>
          have hcall :=
            hothers _ (List.mem_append_right _ (List.mem_singleton_self _))
          show (meet o m.service _).2.collections.get? name = _
          rw [meet_snd, (step_effect o m.service _).get?_collections hcall]
          exact ih fun call hmem => hothers call (List.mem_append_left _ hmem)
      | @serve before after number call hunderway =>
          have hseen : (number, call) ∈ callsIn m.seen := by
            refine hsound.sent.subset (List.mem_append_left _ ?_)
            rw [hunderway]
            exact List.mem_append_right _ (List.mem_cons_self ..)
          have hcall : call.writes? ≠ some name := by
            rw [writes?_of_seen hsound hseen]
            intro heq
            cases heq
            exact hname rfl
          show (meet o m.service call).2.collections.get? name = _
          rw [meet_snd, (step_effect o m.service call).get?_collections hcall]
          exact ih hothers

/-- What the ledger says of a committed upload, in terms of the map from ids to
records. -/
theorem overwritten_of_placed {c : Collection} {arrived : List Record}
    {s' : State} (hs : s.Distinct) (hnodup : (records.map Record.id).Nodup)
    (hbefore : s.collections.get? collection = some c)
    (harrived : arrived.Perm records)
    (hafter : s'.collections.get? collection
      = some { c with committed := placeAll arrived c.committed }) :
    Overwritten collection records s s' := by
  have hcommitted : s.committed collection = c.committed := by
    unfold State.committed
    rw [hbefore]
    rfl
  have hcommitted' : s'.committed collection
      = placeAll arrived c.committed := by
    unfold State.committed
    rw [hafter]
    rfl
  refine ⟨⟨c, hbefore, by rw [hcommitted', hafter]⟩, ?_, ?_⟩
  · rw [hcommitted']
    exact nodup_placeAll (hs collection c hbefore)
  · intro id
    rw [hcommitted, hcommitted',
      recordOf?_placeAll id _ ((harrived.map Record.id).nodup_iff.mpr hnodup),
      recordOf?_of_perm hnodup harrived]

/-- After a summary was returned, the ledger is closed by a commit, so all
records are there. -/
theorem overwritten_of_ok {summary : Summary} (hs : s.Distinct)
    (hnodup : (records.map Record.id).Nodup)
    (h : Meets o collection (start collection records options) s m)
    (hresult : m.exchange.result? = some (.ok summary)) :
    Overwritten collection records s m.service ∧
    (creations m.others < 2 ^ 64 →
      m.service.transactions.get? summary.transaction.text =
      some ⟨collection, [], .committed⟩) := by
  have hsound : m.Sound (start collection records options) := Meets.sound h
  cases (lawful_of_sound hsound).outcome _ hresult with
  | committed id number hopening hcommit =>
      have hopening := hsound.received _ _ _ hopening
      have hcommit := hsound.received _ _ _ hcommit
      cases ledger_of_meets h with
      | unopened _ _ huncommitted => exact absurd hcommit (huncommitted _ _ _)
      | gathering _ _ _ huncommitted _ _ =>
          exact absurd hcommit (huncommitted _ _ _)
      | shut _ _ _ huncommitted _ => exact absurd hcommit (huncommitted _ _ _)
      | committed id' number' c arrived hopening' _ hbefore harrived hafter
          _ hkept _ =>
          cases opening_unique hsound hopening hopening'
          exact ⟨overwritten_of_placed hs hnodup hbefore harrived hafter,
            hkept⟩

/-- After an error was returned, the ledger is closed without one, so nothing
was written. A commit that was refused has written nothing either. -/
theorem unchanged_of_error {e : CallError}
    (h : Meets o collection (start collection records options) s m)
    (hresult : m.exchange.result? = some (.error e)) :
    m.service.collections.get? collection = s.collections.get? collection := by
  have hsound : m.Sound (start collection records options) := Meets.sound h
  cases ledger_of_meets h with
  | unopened _ hsame _ => exact hsame
  | gathering _ _ hsame _ _ _ => exact hsame
  | shut _ _ hsame _ _ => exact hsame
  | committed id number c arrived _ hcommitted _ _ _ _ _ _ =>
      -- the answer to a commit cannot be both good and bad
      obtain ⟨cause, hrefused⟩ :=
        (lawful_of_sound hsound).failed e number collection id hresult
        (mem_callsIn_of_posted hsound hcommitted)
      have hsame := receive_inj (nodup_answeredIn hsound) hcommitted
        (hsound.received _ _ _ hrefused)
      cases hsame

end meeting

-- ============================================================== the law

/-- An upload of records with different ids happens as a whole or not at
all, at every moment, as seen by anyone who reads the collection. -/
theorem start_allOrNothing {o : Service.Options} {collection : String}
    {records : List Record} {options : Options} {s : State}
    {m : Meeting (Except CallError Summary)} (hs : Reachable o s)
    (hnodup : (records.map Record.id).Nodup)
    (h : Meets o collection (start collection records options) s m) :
    AllOrNothing o collection records s m where
  ok := by
    intro summary hresult m' hlater
    exact overwritten_of_ok hs.distinct hnodup (h.trans hlater)
      (Meeting.result?_of_steps hlater hresult)
  error := by
    intro e hresult m' hlater name hothers
    have hresult' := Meeting.result?_of_steps hlater hresult
    have hsame : m'.service.collections.get? name
        = s.collections.get? name := by
      by_cases hname : name = collection
      · rw [hname]
        exact unchanged_of_error (h.trans hlater) hresult'
      · exact elsewhere_of_meets hname (h.trans hlater) hothers
    unfold State.committed
    rw [hsame]
  visible := by
    cases ledger_of_meets h with
    | unopened _ hsame _ =>
        exact Or.inl fun call hreads => step_eq_of_reads? hreads hsame
    | gathering _ _ hsame _ _ _ =>
        exact Or.inl fun call hreads => step_eq_of_reads? hreads hsame
    | shut _ _ hsame _ _ =>
        exact Or.inl fun call hreads => step_eq_of_reads? hreads hsame
    | committed _ _ c arrived _ _ hbefore harrived hafter _ _ _ =>
        exact Or.inr
          (overwritten_of_placed hs.distinct hnodup hbefore harrived hafter)
  elsewhere := fun name hname hothers => elsewhere_of_meets hname h hothers

-- ============================================================= a meeting

/-- A service that fails batches with the record of id 5. -/
def failing : Service.Options := { failUpsertFor := some ⟨5⟩ }

/-- The calls that make a collection with one record. -/
def stocking : List Call :=
  [.createCollection (.ofDimension "vectors" none 1),
    .createTransaction "vectors", .upsert ⟨"vectors", ⟨"1"⟩, [⟨⟨7⟩, [9.0]⟩]⟩,
    .commit "vectors" ⟨"1"⟩]

def stocked : State :=
  stocking.foldl (fun s call => (step failing s call).2) .initial

/-- The stocked service is one that requests lead to, so that the witness
starts from a reachable state. -/
private theorem reachable_stocked : Reachable failing stocked :=
  .step (.step (.step (.step .initial _) _) _) _

/-- The second batch is refused while the first is on its way. The first
reaches the service when the upload has returned. -/
theorem meets_late :
    ∃ m, Meets failing "vectors" (start "vectors" threeRecords ⟨2, 2⟩)
      stocked m ∧
      m.exchange.result? =
        some (.error (.batchFailed 1
          (.rejected "Upsert" 500 "injected failure for 5"))) ∧
      m.underway = [] := by
  let t : TransactionId := ⟨"2"⟩
  let first : Batch := ⟨"vectors", t, threeRecords.take 2⟩
  let second : Batch := ⟨"vectors", t, threeRecords.drop 2⟩
  let next := conclude "vectors" ⟨t, 2, 3⟩
  have h0 : Meets failing "vectors"
      (start "vectors" threeRecords ⟨2, 2⟩) stocked
      (.start (start "vectors" threeRecords ⟨2, 2⟩) stocked) := .refl
  have h1 := h0.tail (.send (.ask (.createTransaction "vectors") _ 0))
  have h2 := h1.tail (.serve [] [] rfl)
  have h3 : Meets failing "vectors"
      (start "vectors" threeRecords ⟨2, 2⟩) stocked
      ⟨⟨.ready (.upload 2 (batches "vectors" t threeRecords 2)
        (conclude "vectors" ⟨t, (batches "vectors" t threeRecords 2).length,
          3⟩)), 1⟩,
        _, _, _, _, _⟩ :=
    h2.tail
      (.receive (.answer 0 (.createTransaction "vectors") _ 1 (.ok t))
        (.head _))
  rw [batches_threeRecords] at h3
  have h4 := h3.tail (.think (.upload 2 [first, second] next 1) rfl)
  have h5 := h4.tail (.send (.sendBatch _ _ next 3 1 first rfl))
  have h6 := h5.tail (.send (.sendBatch _ _ next 3 2 second rfl))
  have h7 := h6.tail (.serve [(1, .upsert first)] [] rfl)
  have h8 :=
    h7.tail (.receive (.answerBatch _ next 3 2 second (.tail _ (.head _)) rfl
    (.error (.rejected "Upsert" 500 "injected failure for 5")))
      (.tail _ (.head _)))
  have h9 := h8.tail (.think (.uploaded _ next 3 _ rfl) rfl)
  have h10 := h9.tail (.think (.note _ _ 3) rfl)
  have h11 := h10.tail (.think (.note _ _ 3) rfl)
  have h12 := h11.tail (.send (.ask (.abort "vectors" t) _ 3))
  have h13 := h12.tail (.serve [(1, .upsert first)] [] rfl)
  have h14 := h13.tail (.receive (.answer 3 (.abort "vectors" t) _ 4 (.ok ()))
    (.tail _ (.tail _ (.head _))))
  have h15 := h14.tail (.serve [] [] rfl)
  exact ⟨_, h15, rfl, rfl⟩

/-- Nothing of that upload stays, nor does what comes late. -/
theorem start_allOrNothing_of_late :
    ∃ m, Meets failing "vectors" (start "vectors" threeRecords ⟨2, 2⟩)
      stocked m ∧
      m.exchange.result? =
        some (.error (.batchFailed 1
          (.rejected "Upsert" 500 "injected failure for 5"))) ∧
      m.underway = [] ∧
      AllOrNothing failing "vectors" threeRecords stocked m := by
  obtain ⟨m, hmeets, hresult, hunderway⟩ := meets_late
  exact ⟨m, hmeets, hresult, hunderway,
    start_allOrNothing reachable_stocked (by decide) hmeets⟩

end KnnOracle.Upload
