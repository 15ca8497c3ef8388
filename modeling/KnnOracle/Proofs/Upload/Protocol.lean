/-
What an upload asks of a service, and what it returns.

`Lawful` says which calls an upload makes, when it makes them and what it
makes of the answers, for any service: nothing is assumed of what the
service answers, when, or in which order. `Course.lawful` proves it of
every course, and `start_lawful` of every moment of every upload.

# The specification

A caller who reads `Lawful` need not know the machine: it speaks of calls
sent and answers received, and of the result. A batch counts as
outstanding while it was sent and not answered. What comes back from an
abort is never looked at.

# The route

Without a transaction there is next to nothing to say
(`lawful_of_unopened`). With one, each field is what a reading of the
course says (`lawful_of_opened`). That an upload returns needs none of
this: every conversation does.
-/
import KnnOracle.Proofs.Exchange.Returning
import KnnOracle.Proofs.Upload.Talk

namespace KnnOracle.Upload

open Exchange

-- ====================================================== the specification

/-- What an upload may have returned, and what must have been answered for
that. -/
inductive Outcome (collection : String) (records : List Record)
    (options : Options) (n : Nat) (moves : List Move) :
    Except CallError Summary → Prop where
  | invalid (h : options.batchSize = 0 ∨ options.workers = 0) :
      Outcome collection records options n moves (.error options.fault)
  | unopened (e : CallError)
      (h : Move.receive n (.createTransaction collection) (.error e) ∈ moves) :
      Outcome collection records options n moves (.error e)
  /-- The batch that is named was refused, for the cause that is named, and
  no other was. -/
  | refused (transaction : TransactionId) (i : Nat) (batch : Batch)
      (cause : CallError)
      (hopen : Move.receive n (.createTransaction collection) (.ok transaction)
        ∈ moves)
      (hbatch : (batches collection transaction records options.batchSize)[i]?
        = some batch)
      (h : Move.receive (n + 1 + i) (.upsert batch) (.error cause) ∈ moves)
      (hothers : ∀ answer ∈ answersIn moves,
        answer.2 = .ok () ∨ answer = ((n + 1 + i, batch), .error cause)) :
      Outcome collection records options n moves
        (.error (.batchFailed i cause))
  | uncommitted (transaction : TransactionId) (number : Nat) (e : CallError)
      (hopen : Move.receive n (.createTransaction collection) (.ok transaction)
        ∈ moves)
      (h : Move.receive number (.commit collection transaction) (.error e)
        ∈ moves) :
      Outcome collection records options n moves (.error e)
  | committed (transaction : TransactionId) (number : Nat)
      (hopen : Move.receive n (.createTransaction collection) (.ok transaction)
        ∈ moves)
      (h : Move.receive number (.commit collection transaction) (.ok ())
        ∈ moves) :
      Outcome collection records options n moves (.ok ⟨transaction,
        (batches collection transaction records options.batchSize).length,
          records.length⟩)

/-- The two sides of an upload have said `moves` to each other, its first
call having the number `n`, and the result is `result` if there is one. -/
structure Lawful (collection : String) (records : List Record)
    (options : Options) (n : Nat) (moves : List Move)
    (result : Option (Except CallError Summary)) : Prop where
  /-- With options that make no sense nothing is sent. -/
  invalid : options.batchSize = 0 ∨ options.workers = 0 →
    moves = [] ∧ result = some (.error options.fault)
  /-- All calls belong to one transaction of the collection, and each has a
  number of its own. -/
  calls : ∀ number call, (number, call) ∈ callsIn moves →
    (number, call) = (n, .createTransaction collection) ∨
    ∃ transaction, Move.receive n (.createTransaction collection)
      (.ok transaction) ∈ moves ∧
      ((number, call) ∈ (batchesIn moves).map
        (fun job => (job.1, Call.upsert job.2)) ∨
        call = .commit collection transaction ∨
        call = .abort collection transaction)
  numbers : ((callsIn moves).map Prod.fst).Nodup
  /-- Where no transaction is opened, that error is returned, and nothing
  else was sent. -/
  unopened : ∀ e,
    Move.receive n (.createTransaction collection) (.error e) ∈ moves →
    callsIn moves = [(n, .createTransaction collection)] ∧
      result = some (.error e)
  /-- Batches are sent in their order, none of them twice, and only into an
  open transaction. -/
  sent : ∀ transaction,
    Move.receive n (.createTransaction collection) (.ok transaction) ∈ moves →
    batchesIn moves <+:
      Window.number (n + 1)
        (batches collection transaction records options.batchSize)
  notSent : (∀ transaction,
    Move.receive n (.createTransaction collection) (.ok transaction) ∉ moves) →
    batchesIn moves = []
  /-- One after the other, the batches of a transaction are the records. -/
  whole : ∀ transaction,
    ((batches collection transaction records options.batchSize).map
      Batch.records).flatten = records
  /-- No batch is empty or too large. -/
  size : ∀ job ∈ batchesIn moves,
    job.2.records ≠ [] ∧ job.2.records.length ≤ options.batchSize
  /-- What is answered was sent, and is answered once. -/
  answered : ((answersIn moves).map Prod.fst).Subperm (batchesIn moves)
  /-- There are never more batches outstanding than there are workers. -/
  outstanding : (batchesIn moves).length
    ≤ (answersIn moves).length + options.workers
  /-- After a refusal no batch is sent. -/
  halted : ∀ before number batch e after,
    moves = before ++ .receive number (.upsert batch) (.error e) :: after →
    batchesIn after = []
  /-- A commit is sent once, when all batches were sent and accepted. -/
  commitOnce : (commitsIn moves).length ≤ 1
  complete : ∀ before number name transaction after,
    moves = before ++ .send number (.commit name transaction) :: after →
    name = collection ∧
    Move.receive n (.createTransaction collection) (.ok transaction) ∈ before ∧
    batchesIn before =
      Window.number (n + 1)
        (batches collection transaction records options.batchSize) ∧
    ∀ job ∈ batchesIn before, (job, .ok ()) ∈ answersIn before
  /-- A transaction is aborted once if the upload fails, and never if it
  does not. -/
  abortOnce : (abortsIn moves).length ≤ 1
  aborted : ∀ transaction e,
    Move.receive n (.createTransaction collection) (.ok transaction) ∈ moves →
    result = some (.error e) →
    ∃ number, abortsIn moves = [(number, .abort collection transaction)]
  kept : ∀ summary, result = some (.ok summary) → abortsIn moves = []
  /-- What is returned is what was answered. -/
  outcome : ∀ returned, result = some returned →
    Outcome collection records options n moves returned
  /-- A failed upload sent no commit, or the commit was refused. -/
  failed : ∀ e number name transaction, result = some (.error e) →
    (number, .commit name transaction) ∈ callsIn moves →
    ∃ cause, Move.receive number (.commit name transaction)
      (.error cause) ∈ moves
  /-- A refused batch decides the result, and so does the answer to the
  commit. -/
  refused : ∀ number batch e,
    Move.receive number (.upsert batch) (.error e) ∈ moves →
    n + 1 ≤ number ∧
    ∀ returned, result = some returned →
      returned = .error (.batchFailed (number - (n + 1)) e)
  uncommitted : ∀ number name transaction e,
    Move.receive number (.commit name transaction) (.error e) ∈ moves →
    ∀ returned, result = some returned → returned = .error e
  committed : ∀ number name transaction,
    Move.receive number (.commit name transaction) (.ok ()) ∈ moves →
    result = some (.ok ⟨transaction,
      (batches collection transaction records options.batchSize).length,
        records.length⟩)

-- ============================================================ the courses

section course

variable {collection : String} {records : List Record} {options : Options}
  {n : Nat}
  {moves : List Move} {result : Option (Except CallError Summary)}

/-- The batches together hold the records in their order. This is what makes a
committed upload complete. -/
theorem flatten_batches (transaction : TransactionId) (size : Nat) :
    ((batches collection transaction records size).map Batch.records).flatten
      = records := by
  unfold batches
  rw [List.map_map]
  show ((chunks size records).map id).flatten = records
  rw [List.map_id, flatten_chunks]

/-- No batch is empty, and none is larger than the options allow. -/
private theorem size_of_mem_batches {transaction : TransactionId} {size : Nat}
    {batch : Batch} (hsize : 0 < size)
    (h : batch ∈ batches collection transaction records size) :
    batch.records ≠ [] ∧ batch.records.length ≤ size := by
  obtain ⟨piece, hpiece, rfl⟩ := List.mem_map.mp h
  exact ⟨ne_nil_of_mem_chunks hpiece, length_le_of_mem_chunks hsize hpiece⟩

/-- An upload that opened no transaction did nothing but ask for one. -/
theorem lawful_of_unopened
    (hinvalid : options.batchSize = 0 ∨ options.workers = 0 → moves = [] ∧
      result = some (.error options.fault))
    (hcalls : callsIn moves = [] ∨
      callsIn moves = [(n, .createTransaction collection)])
    (hreceive : ∀ number call (reply : Reply call),
      Move.receive number call reply ∈ moves →
      ∃ e, Move.receive number call reply
        = .receive n (.createTransaction collection) (.error e) ∧
        callsIn moves = [(n, .createTransaction collection)] ∧
        result = some (.error e))
    (hresult : ∀ returned, result = some returned →
      Outcome collection records options n moves returned) :
    Lawful collection records options n moves result := by
  have hcall : ∀ number call, (number, call) ∈ callsIn moves →
      (number, call) = (n, .createTransaction collection) := by
    intro number call hmem
    rcases hcalls with hcalls | hcalls
    · rw [hcalls] at hmem
      cases hmem
    · rw [hcalls] at hmem
      exact List.mem_singleton.mp hmem
  have hbatches : batchesIn moves = [] := by
    apply List.eq_nil_iff_forall_not_mem.mpr
    rintro ⟨number, batch⟩ hmem
    cases hcall _ _ (mem_callsIn.mpr (mem_batchesIn.mp hmem))
  have hanswers : answersIn moves = [] := by
    apply List.eq_nil_iff_forall_not_mem.mpr
    rintro ⟨⟨number, batch⟩, reply⟩ hmem
    obtain ⟨e, heq, -⟩ := hreceive _ _ _ (mem_answersIn.mp hmem)
    cases heq
  -- the only call is no commit and no abort
  have hnone : ∀ kind : Call → Bool,
      kind (.createTransaction collection) = false →
      ((callsIn moves).filter fun call => kind call.2) = [] := by
    intro kind hkind
    apply List.filter_eq_nil_iff.mpr
    rintro ⟨number, call⟩ hmem
    cases hcall _ _ hmem
    rw [hkind]
    exact Bool.false_ne_true
  have hcommits : commitsIn moves = [] := hnone Call.isCommit rfl
  have haborts : abortsIn moves = [] := hnone Call.isAbort rfl
  exact
    { invalid := hinvalid
      calls := fun number call hmem => Or.inl (hcall number call hmem)
      numbers := by
        rcases hcalls with hcalls | hcalls
        · rw [hcalls]
          exact List.nodup_nil
        · rw [hcalls]
          exact List.nodup_singleton n
      unopened := by
        intro e hmem
        obtain ⟨e', heq, hcalls, hresult⟩ := hreceive _ _ _ hmem
        cases heq
        exact ⟨hcalls, hresult⟩
      sent := by
        intro transaction hmem
        obtain ⟨e, heq, -⟩ := hreceive _ _ _ hmem
        cases heq
      notSent := fun _ => hbatches
      whole := fun transaction => flatten_batches transaction options.batchSize
      size := by
        intro job hmem
        rw [hbatches] at hmem
        cases hmem
      answered := by
        rw [hanswers]
        exact List.nil_subperm
      outstanding := by
        rw [hbatches]
        exact Nat.zero_le _
      halted := by
        intro before number batch e after hsplit
        obtain ⟨e', heq, -⟩ := hreceive number (.upsert batch) (.error e)
          (hsplit ▸ List.mem_append_right _ (List.mem_cons_self ..))
        cases heq
      commitOnce := by
        rw [hcommits]
        exact Nat.zero_le _
      complete := by
        intro before number name transaction after hsplit
        have hmem : Move.send number (.commit name transaction) ∈ moves :=
          hsplit ▸ List.mem_append_right _ (List.mem_cons_self ..)
        cases hcall _ _ (mem_callsIn.mpr hmem)
      abortOnce := by
        rw [haborts]
        exact Nat.zero_le _
      aborted := by
        intro transaction e hmem
        obtain ⟨e', heq, -⟩ := hreceive _ _ _ hmem
        cases heq
      kept := fun _ _ => haborts
      outcome := hresult
      failed := by
        intro e number name transaction _ hmem
        cases hcall _ _ hmem
      refused := by
        intro number batch e hmem
        obtain ⟨e', heq, -⟩ := hreceive _ _ _ hmem
        cases heq
      uncommitted := by
        intro number name transaction e hmem
        obtain ⟨e', heq, -⟩ := hreceive _ _ _ hmem
        cases heq
      committed := by
        intro number name transaction hmem
        obtain ⟨e', heq, -⟩ := hreceive _ _ _ hmem
        cases heq }

end course

-- ================================================= with a transaction

section opened

variable {collection : String} {records : List Record} {options : Options}
  {n : Nat}
  {transaction : TransactionId} {all : List Batch} {u : Uploading}
  {ups tail : List Move}
  {summary : Summary} {result : Option (Except CallError Summary)}

/-- A course with a transaction that has returned has one of the three outcomes
of an upload: committed, refused at a batch, or refused at the commit. -/
private theorem outcome_opening {returned : Except CallError Summary}
    (hall : all = batches collection transaction records options.batchSize)
    (hafter : u.After options.workers (n + 1) all ups)
    (hending : Ending collection ⟨transaction, all.length, records.length⟩
      (n + 1 + all.length) u tail (some returned)) :
    Outcome collection records options n
      (opening collection transaction n (ups ++ tail))
      returned := by
  have hopen : Move.receive n (.createTransaction collection)
      (.ok transaction) ∈
      opening collection transaction n (ups ++ tail) :=
    List.mem_cons_of_mem _ (List.mem_cons_self ..)
  have hlater : ∀ {move}, move ∈ ups ++ tail →
      move ∈ opening collection transaction n (ups ++ tail) :=
    fun hmem => List.mem_cons_of_mem _ (List.mem_cons_of_mem _ hmem)
  rcases hending.result_cases with ⟨i, cause, hrefused, rfl, -⟩ |
    ⟨e, -, rfl, hmem, -⟩ |
    ⟨-, rfl, hmem, -⟩
  · obtain ⟨before, batch, hups, hgood⟩ := hafter.bad i cause hrefused
    have hmem : Move.receive (n + 1 + i) (.upsert batch) (.error cause)
        ∈ ups := by
      rw [hups]
      exact List.mem_append_right _ (List.mem_singleton_self _)
    refine .refused transaction i batch cause hopen ?_
      (hlater (List.mem_append_left _ hmem)) ?_
    · -- the batch was answered, so it was sent, so it is one of the batches
      have hsent := hafter.answered_subperm.subset
        (List.mem_map.mpr ⟨_, mem_answersIn.mpr hmem, rfl⟩)
      have hjob : (n + 1 + i, batch) ∈ Window.number (n + 1) all := by
        rw [← hafter.sent]
        exact List.mem_append_left _ hsent
      obtain ⟨j, hj, hbatch⟩ := Window.mem_number.mp hjob
      rw [← hall, show i = j by omega]
      exact hbatch
    · intro answer hanswer
      rw [answersIn_opening hending, hups, answersIn_append] at hanswer
      rcases List.mem_append.mp hanswer with hanswer | hanswer
      · exact Or.inl (hgood answer hanswer)
      · exact Or.inr (List.mem_singleton.mp hanswer)
  · exact .uncommitted transaction _ e hopen
      (hlater (List.mem_append_right _ hmem))
  · rw [hall]
    rw [hall] at hmem
    exact .committed transaction _ hopen
      (hlater (List.mem_append_right _ hmem))

/-- An upload that opened a transaction is lawful, field by field. Each field
is a lemma on courses. -/
theorem lawful_of_opened
    (hvalid : ¬(options.batchSize = 0 ∨ options.workers = 0))
    (hall : all = batches collection transaction records options.batchSize)
    (hafter : u.After options.workers (n + 1) all ups)
    (hending : Ending collection ⟨transaction, all.length, records.length⟩
      (n + 1 + all.length) u tail result) :
    Lawful collection records options n
      (opening collection transaction n (ups ++ tail)) result :=
  { invalid := fun h => absurd h hvalid
    calls := by
      intro number call hmem
      rcases calls_opening hafter hending hmem with h | h
      · exact Or.inl h
      · rw [batchesIn_opening hending]
        exact Or.inr ⟨transaction,
          List.mem_cons_of_mem _ (List.mem_cons_self ..), h⟩
    numbers := nodup_callsIn_opening hafter hending
    unopened := by
      intro e hmem
      cases eq_of_receive_opening hafter hending hmem
    sent := by
      intro id hmem
      cases eq_of_receive_opening hafter hending hmem
      rw [batchesIn_opening hending, ← hall, ← hafter.sent]
      exact List.prefix_append _ _
    notSent :=
      fun hnone => absurd (List.mem_cons_of_mem _ (List.mem_cons_self ..))
      (hnone transaction)
    whole := fun id => flatten_batches id options.batchSize
    size := by
      rintro ⟨number, batch⟩ hmem
      rw [batchesIn_opening hending] at hmem
      have hjob : (number, batch) ∈ Window.number (n + 1) all := by
        rw [← hafter.sent]
        exact List.mem_append_left _ hmem
      obtain ⟨i, -, hbatch⟩ := Window.mem_number.mp hjob
      rw [hall] at hbatch
      exact size_of_mem_batches (by omega) (List.mem_of_getElem? hbatch)
    answered := by
      rw [batchesIn_opening hending, answersIn_opening hending]
      exact hafter.answered_subperm
    outstanding := by
      rw [batchesIn_opening hending, answersIn_opening hending]
      have := hafter.length_sent_le
      omega
    halted := fun before number batch e after hsplit =>
      batchesIn_after_refusal hafter hending hsplit
    commitOnce := by
      rw [commitsIn_opening hafter, commitsIn]
      rcases hending.callsIn_eq with hcalls | hcalls | hcalls | hcalls <;>
        simp [hcalls, Call.isCommit]
    complete := by
      intro before number name id after hsplit
      obtain ⟨rfl, rfl, rfl, hu⟩ :=
        complete_before_commit hafter hending hsplit
      obtain ⟨hbatches, hperm, hgood⟩ := hafter.accepted hu
      refine ⟨rfl, List.mem_cons_of_mem _ (List.mem_cons_self ..), ?_, ?_⟩
      · rw [← hall, ← hbatches]
        rfl
      · intro job hjob
        have hjob : job ∈ batchesIn ups := hjob
        rw [hbatches] at hjob
        obtain ⟨answer, hanswer, rfl⟩ :=
          List.mem_map.mp (hperm.mem_iff.mpr hjob)
        show (answer.1, .ok ()) ∈ answersIn ups
        rw [← hgood answer hanswer]
        exact hanswer
    abortOnce := by
      rw [abortsIn_opening hafter, abortsIn]
      rcases hending.callsIn_eq with hcalls | hcalls | hcalls | hcalls <;>
        simp [hcalls, Call.isAbort]
    aborted := by
      intro id e hmem hresult
      cases eq_of_receive_opening hafter hending hmem
      subst hresult
      exact abortsIn_of_error hafter hending
    kept := by
      intro s hresult
      subst hresult
      exact abortsIn_of_ok hafter hending
    outcome := by
      intro returned hresult
      subst hresult
      exact outcome_opening hall hafter hending
    failed := by
      intro e number name id hresult hmem
      subst hresult
      exact refused_commit_opening hafter hending hmem
    refused := fun number batch e hmem =>
      result_of_refusal hafter hending (receive_upsert_opening hending hmem)
    uncommitted := fun number name id e hmem =>
      (hending.uncommitted_of_mem (receive_commit_opening hafter hmem)).2.2
    committed := by
      intro number name id hmem
      obtain ⟨rfl, rfl, hresult⟩ :=
        hending.committed_of_mem (receive_commit_opening hafter hmem)
      rw [hresult, hall] }

end opened

-- =============================================================== the law

section law

variable {collection : String} {records : List Record} {options : Options}
  {n : Nat}
  {moves : List Move} {result : Option (Except CallError Summary)}

/-- A course with valid options is lawful: each of the properties is read off
its form. -/
private theorem Course.lawful
    (hvalid : ¬(options.batchSize = 0 ∨ options.workers = 0))
    (h : Course collection records options n moves result) :
    Lawful collection records options n moves result := by
  cases h with
  | quiet =>
      refine lawful_of_unopened (fun h => absurd h hvalid) (Or.inl rfl) ?_ ?_
      · intro number call reply hmem
        cases hmem
      · intro returned hreturned
        cases hreturned
  | asking =>
      refine lawful_of_unopened (fun h => absurd h hvalid) (Or.inr rfl) ?_ ?_
      · intro number call reply hmem
        cases List.mem_singleton.mp hmem
      · intro returned hreturned
        cases hreturned
  | unopened e =>
      refine lawful_of_unopened (fun h => absurd h hvalid) (Or.inr rfl) ?_ ?_
      · intro number call reply hmem
        rcases List.mem_cons.mp hmem with heq | hmem
        · cases heq
        · exact ⟨e, List.mem_singleton.mp hmem, rfl, rfl⟩
      · intro returned hreturned
        cases hreturned
        exact .unopened e (List.mem_cons_of_mem _ (List.mem_cons_self ..))
  | opened transaction all u hall hafter hending =>
      exact lawful_of_opened hvalid hall hafter hending

/-- Every path of an upload is lawful, whatever the replies are and in whatever
order they come. -/
theorem lawful_of_path {x : Exchange (Except CallError Summary)}
    (h : Path ⟨.ready (start collection records options), n⟩ moves x) :
    Lawful collection records options n (talkIn moves) x.result? := by
  by_cases hinvalid : options.batchSize = 0 ∨ options.workers = 0
  · obtain ⟨rfl, hresult⟩ := path_start_of_invalid hinvalid h
    rw [hresult]
    refine lawful_of_unopened (fun _ => ⟨rfl, rfl⟩) (Or.inl rfl) ?_ ?_
    · intro number call reply hmem
      cases hmem
    · intro returned hreturned
      cases hreturned
      exact .invalid hinvalid
  · exact (path_start hinvalid h).lawful hinvalid

/-- At every moment an upload has kept to its protocol, whatever the replies
were and in whatever order they came, and it will return. -/
theorem start_lawful {x : Exchange (Except CallError Summary)}
    (h : Path ⟨.ready (start collection records options), n⟩ moves x) :
    Lawful collection records options n (talkIn moves) x.result? ∧ x.Returns :=
  ⟨lawful_of_path h, (returns_ready _ n).path h⟩

end law

-- ============================================================= an upload

/-- Three records, which make two batches of at most two. -/
def threeRecords : List Record := [⟨⟨7⟩, [1.0]⟩, ⟨⟨3⟩, [2.0]⟩, ⟨⟨5⟩, [3.0]⟩]

theorem batches_threeRecords (transaction : TransactionId) :
    batches "vectors" transaction threeRecords 2 =
      [⟨"vectors", transaction, threeRecords.take 2⟩,
        ⟨"vectors", transaction, threeRecords.drop 2⟩] := by
  simp [batches, chunks, threeRecords]

/-- Two batches are in flight, and the second is refused first. -/
theorem path_upload_second_refused {α : Type} (first second : Batch)
    (next : Tally → Conversation α) (cause : CallError) :
    Path ⟨.ready (.upload 2 [first, second] next), 1⟩
      [.send 1 (.upsert first), .send 2 (.upsert second),
        .receive 2 (.upsert second) (.error cause)]
      ⟨.ready (next ⟨0, some (1, cause)⟩), 3⟩ :=
  Path.step (.upload 2 [first, second] next 1) <|
    .step (.sendBatch _ _ next 3 1 first rfl) <|
    .step (.sendBatch _ _ next 3 2 second rfl) <|
    .step
      (.answerBatch _ next 3 2 second (.tail _ (.head _)) rfl (.error cause))
        <|
    .single (.uploaded _ next 3 ⟨0, some (1, cause)⟩ rfl)

/-- What is seen when the second of two batches is refused while the first
is in flight, and the service does not know of the transaction when it is
to be aborted. -/
def lateRefusal : List Move :=
  [.send 0 (.createTransaction "vectors"),
    .receive 0 (.createTransaction "vectors") (.ok (TransactionId.mk "1")),
    .send 1 (.upsert ⟨"vectors", ⟨"1"⟩, threeRecords.take 2⟩),
    .send 2 (.upsert ⟨"vectors", ⟨"1"⟩, threeRecords.drop 2⟩),
    .receive 2 (.upsert ⟨"vectors", ⟨"1"⟩, threeRecords.drop 2⟩)
      (.error (.unreachable "late")),
    .note .batchFailed, .note .transactionAborted,
    .send 3 (.abort "vectors" ⟨"1"⟩),
    .receive 3 (.abort "vectors" ⟨"1"⟩) (.error (.unreachable "gone"))]

/-- The second batch is refused while the first is still on its way. The upload
gives up without waiting for the first, and tells of the second. -/
private theorem path_lateRefusal :
    Path ⟨.ready (start "vectors" threeRecords ⟨2, 2⟩), 0⟩ lateRefusal
      ⟨.ready (.done (.error (.batchFailed 1 (.unreachable "late")))), 4⟩ := by
  refine .step (.ask (.createTransaction "vectors") _ 0) ?_
  refine .step
    (.answer 0 (.createTransaction "vectors") _ 1 (.ok (TransactionId.mk "1")))
      ?_
  show Path ⟨.ready (.upload 2 (batches "vectors" ⟨"1"⟩ threeRecords 2) _), 1⟩
    _ _
  rw [batches_threeRecords]
  refine (path_upload_second_refused _ _ _ (.unreachable "late")).trans ?_
  exact .step (.note _ _ 3) <| .step (.note _ _ 3) <| .step (.ask _ _ 3) <|
    .single (.answer 3 _ _ 4 (.error (.unreachable "gone")))

/-- The upload returns the cause of the refusal, and sent one abort. -/
theorem start_lawful_of_refusal :
    ∃ x, Path ⟨.ready (start "vectors" threeRecords ⟨2, 2⟩), 0⟩ lateRefusal x ∧
      x.result? = some (.error (.batchFailed 1 (.unreachable "late"))) ∧
      abortsIn (talkIn lateRefusal) = [(3, .abort "vectors" ⟨"1"⟩)] ∧
      Lawful "vectors" threeRecords ⟨2, 2⟩ 0 (talkIn lateRefusal) x.result? ∧
      x.Returns :=
  ⟨_, path_lateRefusal, rfl, rfl, start_lawful path_lateRefusal⟩

end KnnOracle.Upload
