/-
Reading the course of an upload.

A course is a list of moves in a given form. This file reads it: which
calls are among the moves and with which numbers, what was answered, what
stood before a commit and what came after a refusal. What follows the
batches is short, so its lemmas are looks at the forms (`Ending.*`). Those
of a whole course with a transaction (`*_opening`) put them together with
what `Uploading.After` tells of the batches.

Where a lemma speaks of what was seen before or after a move,
`exists_append_of_not_mem_left` and its twin find the place of the move.
-/
import KnnOracle.Proofs.Upload.Course

namespace KnnOracle

-- ============================================================== the calls

/-- Whether a call commits. -/
def Call.isCommit : Call → Bool
  | .commit _ _ => true
  | _ => false

/-- Whether a call aborts. -/
def Call.isAbort : Call → Bool
  | .abort _ _ => true
  | _ => false

/-- The commits that are sent. -/
def commitsIn (moves : List Move) : List (Nat × Call) :=
  (callsIn moves).filter fun call => call.2.isCommit

/-- The aborts that are sent. -/
def abortsIn (moves : List Move) : List (Nat × Call) :=
  (callsIn moves).filter fun call => call.2.isAbort

/-- An element that is not in the first part stands in the second. It tells in
which stage a move was made. -/
theorem exists_append_of_not_mem_left {α : Type} {xs ys before after : List α}
    {x : α} (h : xs ++ ys = before ++ x :: after) (hx : x ∉ xs) :
    ∃ middle, before = xs ++ middle ∧ ys = middle ++ x :: after := by
  rcases List.append_eq_append_iff.mp h with ⟨middle, hbefore, hys⟩ |
    ⟨rest, hxs, hafter⟩
  · exact ⟨middle, hbefore, hys⟩
  · cases rest with
    | nil =>
        rw [List.append_nil] at hxs
        exact ⟨[], by rw [hxs, List.append_nil], hafter.symm⟩
    | cons head rest =>
        cases hafter
        exact absurd (hxs ▸ List.mem_append_right _ (List.mem_cons_self ..)) hx

/-- An element that is not in the second part stands in the first. -/
theorem exists_append_of_not_mem_right {α : Type} {xs ys before after : List α}
    {x : α} (h : xs ++ ys = before ++ x :: after) (hx : x ∉ ys) :
    ∃ middle, xs = before ++ x :: middle ∧ after = middle ++ ys := by
  rcases List.append_eq_append_iff.mp h with ⟨middle, hbefore, hys⟩ |
    ⟨rest, hxs, hafter⟩
  · exact absurd (hys ▸ List.mem_append_right _ (List.mem_cons_self ..)) hx
  · cases rest with
    | nil =>
        rw [List.nil_append] at hafter
        rw [← hafter] at hx
        exact absurd (List.mem_cons_self ..) hx
    | cons head rest =>
        cases hafter
        exact ⟨rest, hxs, rfl⟩

namespace Upload

-- ================================================== what follows the batches

section ending

variable {collection : String} {summary : Summary} {k : Nat} {u : Uploading}
  {tail : List Move} {result : Option (Except CallError Summary)}

/-- What is seen of a failed upload after its last batch and its commit. -/
theorem Abandoned.forms {transaction : TransactionId} {e : CallError}
    (h : Abandoned collection transaction k e tail result) :
    (callsIn tail = [] ∧ result = none) ∨
    (callsIn tail = [(k, .abort collection transaction)] ∧
      (result = none ∨ result = some (.error e))) := by
  cases h with
  | due => exact Or.inl ⟨rfl, rfl⟩
  | sent => exact Or.inr ⟨rfl, Or.inl rfl⟩
  | answered reply => exact Or.inr ⟨rfl, Or.inr rfl⟩

private theorem Abandoned.isAbort_of_receive {transaction : TransactionId}
    {e : CallError} {number : Nat} {call : Call} {reply : Reply call}
    (h : Abandoned collection transaction k e tail result)
    (hmem : Move.receive number call reply ∈ tail) : call.isAbort = true := by
  cases h with
  | due => cases hmem
  | sent => cases List.mem_singleton.mp hmem
  | answered reply =>
      rcases List.mem_cons.mp hmem with heq | hmem
      · cases heq
      · cases List.mem_singleton.mp hmem
        rfl

private theorem Abandoned.isAbort_of_send {transaction : TransactionId}
    {e : CallError} {number : Nat} {call : Call}
    (h : Abandoned collection transaction k e tail result)
    (hmem : (number, call) ∈ callsIn tail) : call.isAbort = true := by
  rcases h.forms with ⟨hcalls, -⟩ | ⟨hcalls, -⟩
  · rw [hcalls] at hmem
    cases hmem
  · rw [hcalls] at hmem
    cases List.mem_singleton.mp hmem
    rfl

/-- No batches are sent or answered any more, so all that is known of batches
is known before. -/
theorem Ending.silent (h : Ending collection summary k u tail result) :
    batchesIn tail = [] ∧ answersIn tail = [] := by
  cases h with
  | quiet => exact ⟨rfl, rfl⟩
  | refused _ _ _ h => cases h <;> exact ⟨rfl, rfl⟩
  | committing _ => exact ⟨rfl, rfl⟩
  | committed _ => exact ⟨rfl, rfl⟩
  | uncommitted _ _ h => cases h <;> exact ⟨rfl, rfl⟩

/-- There is a commit, an abort, or a commit and an abort. -/
theorem Ending.callsIn_eq (h : Ending collection summary k u tail result) :
    callsIn tail = [] ∨ callsIn tail
      = [(k, .abort collection summary.transaction)] ∨
    callsIn tail = [(k, .commit collection summary.transaction)] ∨
    callsIn tail = [(k, .commit collection summary.transaction),
      (k + 1, .abort collection summary.transaction)] := by
  cases h with
  | quiet => exact Or.inl rfl
  | refused _ _ _ h =>
      rcases h.forms with ⟨hcalls, -⟩ | ⟨hcalls, -⟩
      · exact Or.inl hcalls
      · exact Or.inr (Or.inl hcalls)
  | committing _ => exact Or.inr (Or.inr (Or.inl rfl))
  | committed _ => exact Or.inr (Or.inr (Or.inl rfl))
  | @uncommitted rest _ _ _ h =>
      show _ :: callsIn rest = _ ∨ _ :: callsIn rest = _ ∨
        _ :: callsIn rest = _ ∨
        _ :: callsIn rest = _
      rcases h.forms with ⟨hcalls, -⟩ | ⟨hcalls, -⟩
      · rw [hcalls]
        exact Or.inr (Or.inr (Or.inl rfl))
      · rw [hcalls]
        exact Or.inr (Or.inr (Or.inr rfl))

/-- After the last batch only commits and aborts are answered, so that an
accepted batch was answered before. -/
private theorem Ending.receive_forms {number : Nat} {call : Call}
    {reply : Reply call} (h : Ending collection summary k u tail result)
    (hmem : Move.receive number call reply ∈ tail) :
    call.isCommit = true ∨ call.isAbort = true := by
  cases h with
  | quiet => cases hmem
  | refused _ _ _ h => exact Or.inr (h.isAbort_of_receive hmem)
  | committing _ =>
      rcases List.mem_cons.mp hmem with heq | hmem
      · cases heq
      · cases hmem
  | committed _ =>
      rcases List.mem_cons.mp hmem with heq | hmem
      · cases heq
      · cases List.mem_singleton.mp hmem
        exact Or.inl rfl
  | uncommitted _ _ h =>
      rcases List.mem_cons.mp hmem with heq | hmem
      · cases heq
      · rcases List.mem_cons.mp hmem with heq | hmem
        · cases heq
          exact Or.inl rfl
        · exact Or.inr (h.isAbort_of_receive hmem)

/-- Nothing comes before a commit, and all batches were accepted. -/
theorem Ending.commit_first {before after : List Move} {number : Nat}
    {name : String} {transaction : TransactionId}
    (h : Ending collection summary k u tail result)
    (hsplit : tail = before ++ .send number (.commit name transaction)
      :: after) :
    before = [] ∧ name = collection ∧ transaction = summary.transaction ∧
      u.IsAccepted := by
  have hmem : (number, .commit name transaction) ∈ callsIn tail := by
    rw [mem_callsIn, hsplit]
    exact List.mem_append_right _ (List.mem_cons_self ..)
  -- a commit stands first, and none comes later
  have hfirst : ∀ {rest : List Move}, (∀ name transaction, ∀ number,
      (number, .commit name transaction) ∉ callsIn rest) →
      .send k (.commit collection summary.transaction) :: rest
        = before ++ .send number (.commit name transaction) :: after →
      before = [] ∧ name = collection ∧ transaction = summary.transaction := by
    intro rest hrest heq
    cases before with
    | nil =>
        cases heq
        exact ⟨rfl, rfl, rfl⟩
    | cons head before =>
        have htail := (List.cons.inj heq).2
        refine absurd ?_ (hrest name transaction number)
        rw [mem_callsIn, htail]
        exact List.mem_append_right _ (List.mem_cons_self ..)
  cases h with
  | quiet => cases hmem
  | refused _ _ _ h => cases h.isAbort_of_send hmem
  | committing hu =>
      obtain ⟨hbefore, hname, htransaction⟩ :=
        hfirst (fun _ _ _ h => by cases h) hsplit
      exact ⟨hbefore, hname, htransaction, hu⟩
  | committed hu =>
      obtain ⟨hbefore, hname, htransaction⟩ :=
        hfirst (fun _ _ _ h => by cases h) hsplit
      exact ⟨hbefore, hname, htransaction, hu⟩
  | uncommitted e hu h =>
      obtain ⟨hbefore, hname, htransaction⟩ :=
        hfirst (fun _ _ _ hmem => by cases h.isAbort_of_send hmem) hsplit
      exact ⟨hbefore, hname, htransaction, hu⟩

/-- What is returned, and which calls led to it. -/
theorem Ending.result_cases {returned : Except CallError Summary}
    (h : Ending collection summary k u tail (some returned)) :
    (∃ i cause, u.refused? = some (i, cause) ∧
      returned = .error (.batchFailed i cause) ∧
      callsIn tail = [(k, .abort collection summary.transaction)]) ∨
    (∃ e, u.IsAccepted ∧ returned = .error e ∧
      Move.receive k (.commit collection summary.transaction) (.error e)
        ∈ tail ∧
      callsIn tail = [(k, .commit collection summary.transaction),
        (k + 1, .abort collection summary.transaction)]) ∨
    (u.IsAccepted ∧ returned = .ok summary ∧
      Move.receive k (.commit collection summary.transaction) (.ok ()) ∈ tail ∧
      callsIn tail = [(k, .commit collection summary.transaction)]) := by
  cases h with
  | refused i cause hrefused h =>
      rcases h.forms with ⟨-, hnone⟩ | ⟨hcalls, hnone | hsome⟩
      · cases hnone
      · cases hnone
      · cases hsome
        exact Or.inl ⟨i, cause, hrefused, rfl, hcalls⟩
  | committed hu =>
      exact Or.inr
        (Or.inr ⟨hu, rfl, List.mem_cons_of_mem _ (List.mem_cons_self ..), rfl⟩)
  | uncommitted e hu h =>
      rcases h.forms with ⟨-, hnone⟩ | ⟨hcalls, hnone | hsome⟩
      · cases hnone
      · cases hnone
      · cases hsome
        refine Or.inr
          (Or.inl ⟨e, hu, rfl, List.mem_cons_of_mem _ (List.mem_cons_self ..),
          ?_⟩)
        exact congrArg (_ :: ·) hcalls

/-- A refused commit is that of the upload, and the upload returns the
refusal. -/
theorem Ending.uncommitted_of_mem {number : Nat} {name : String}
    {transaction : TransactionId} {e : CallError}
    (h : Ending collection summary k u tail result)
    (hmem : Move.receive number (.commit name transaction) (.error e) ∈ tail) :
    name = collection ∧ transaction = summary.transaction ∧
    ∀ returned, result = some returned → returned = .error e := by
  cases h with
  | quiet => cases hmem
  | refused _ _ _ h => cases h.isAbort_of_receive hmem
  | committing _ => cases List.mem_singleton.mp hmem
  | committed _ =>
      rcases List.mem_cons.mp hmem with heq | hmem
      · cases heq
      · cases List.mem_singleton.mp hmem
  | uncommitted _ _ h =>
      rcases List.mem_cons.mp hmem with heq | hmem
      · cases heq
      · rcases List.mem_cons.mp hmem with heq | hmem
        · cases heq
          refine ⟨rfl, rfl, ?_⟩
          intro returned hresult
          rcases h.forms with ⟨-, hnone⟩ | ⟨-, hnone | hsome⟩
          · rw [hnone] at hresult
            cases hresult
          · rw [hnone] at hresult
            cases hresult
          · rw [hsome] at hresult
            cases hresult
            rfl
        · cases h.isAbort_of_receive hmem

/-- An accepted commit is that of the upload, which then returns its
summary. -/
theorem Ending.committed_of_mem {number : Nat} {name : String}
    {transaction : TransactionId}
    (h : Ending collection summary k u tail result)
    (hmem : Move.receive number (.commit name transaction) (.ok ()) ∈ tail) :
    name = collection ∧ transaction = summary.transaction ∧
      result = some (.ok summary) := by
  cases h with
  | quiet => cases hmem
  | refused _ _ _ h => cases h.isAbort_of_receive hmem
  | committing _ => cases List.mem_singleton.mp hmem
  | committed _ =>
      rcases List.mem_cons.mp hmem with heq | hmem
      · cases heq
      · cases List.mem_singleton.mp hmem
        exact ⟨rfl, rfl, rfl⟩
  | uncommitted _ _ h =>
      rcases List.mem_cons.mp hmem with heq | hmem
      · cases heq
      · rcases List.mem_cons.mp hmem with heq | hmem
        · cases heq
        · cases h.isAbort_of_receive hmem

end ending

-- ================================================= with a transaction

section opened

variable {collection : String} {records : List Record} {options : Options}
  {n : Nat}
  {transaction : TransactionId} {all : List Batch} {u : Uploading}
  {ups tail : List Move}
  {summary : Summary} {result : Option (Except CallError Summary)}

/-- The calls of a course are the opening, the batches in their order and what
follows them. -/
private theorem callsIn_opening
    (hafter : u.After options.workers (n + 1) all ups) :
    callsIn (opening collection transaction n (ups ++ tail)) =
      (n, .createTransaction collection) ::
        ((batchesIn ups).map (fun job => (job.1, .upsert job.2))
          ++ callsIn tail) := by
  show (n, Call.createTransaction collection) :: callsIn (ups ++ tail) = _
  rw [callsIn_append, hafter.callsIn_eq]

theorem batchesIn_opening
    (hending : Ending collection summary (n + 1 + all.length) u tail result) :
    batchesIn (opening collection transaction n (ups ++ tail))
      = batchesIn ups := by
  show batchesIn (ups ++ tail) = _
  rw [batchesIn_append, hending.silent.1, List.append_nil]

theorem answersIn_opening
    (hending : Ending collection summary (n + 1 + all.length) u tail result) :
    answersIn (opening collection transaction n (ups ++ tail))
      = answersIn ups := by
  show answersIn (ups ++ tail) = _
  rw [answersIn_append, hending.silent.2, List.append_nil]

/-- A kind of call that is neither the opening nor a batch is found after the
batches. -/
theorem filter_callsIn_opening {kind : Call → Bool}
    (hcreate : kind (.createTransaction collection) = false)
    (hupsert : ∀ batch, kind (.upsert batch) = false)
    (hafter : u.After options.workers (n + 1) all ups) :
    (callsIn (opening collection transaction n (ups ++ tail))).filter
      (fun call => kind call.2)
      = (callsIn tail).filter fun call => kind call.2 := by
  have hups :
      ((batchesIn ups).map fun job => (job.1, Call.upsert job.2)).filter
      (fun call => kind call.2) = [] := by
    apply List.filter_eq_nil_iff.mpr
    intro call hmem
    obtain ⟨job, -, rfl⟩ := List.mem_map.mp hmem
    rw [hupsert]
    exact Bool.false_ne_true
  rw [callsIn_opening hafter,
    List.filter_cons_of_neg (by rw [hcreate]; exact Bool.false_ne_true),
    List.filter_append, hups, List.nil_append]

/-- A course commits only after its batches. -/
theorem commitsIn_opening (hafter : u.After options.workers (n + 1) all ups) :
    commitsIn (opening collection transaction n (ups ++ tail))
      = commitsIn tail :=
  filter_callsIn_opening rfl (fun _ => rfl) hafter

/-- A course aborts only after its batches. -/
theorem abortsIn_opening (hafter : u.After options.workers (n + 1) all ups) :
    abortsIn (opening collection transaction n (ups ++ tail))
      = abortsIn tail :=
  filter_callsIn_opening rfl (fun _ => rfl) hafter

/-- No number is used for two calls. The opening has the first, the batches
have those that follow, and the rest comes after. -/
theorem nodup_callsIn_opening
    (hafter : u.After options.workers (n + 1) all ups)
    (hending : Ending collection summary (n + 1 + all.length) u tail result) :
    ((callsIn (opening collection transaction n (ups ++ tail))).map
      Prod.fst).Nodup := by
  have hups : ∀ number ∈ (batchesIn ups).map Prod.fst,
      n + 1 ≤ number ∧ number < n + 1 + all.length := by
    intro number hmem
    obtain ⟨⟨number', batch⟩, hjob, rfl⟩ := List.mem_map.mp hmem
    have hjob : (number', batch) ∈ Window.number (n + 1) all := by
      rw [← hafter.sent]
      exact List.mem_append_left _ hjob
    obtain ⟨i, hnumber, hbatch⟩ := Window.mem_number.mp hjob
    have hlt := (List.getElem?_eq_some_iff.mp hbatch).1
    show n + 1 ≤ number' ∧ number' < n + 1 + all.length
    omega
  have htail : ((callsIn tail).map Prod.fst).Nodup ∧
      ∀ number ∈ (callsIn tail).map Prod.fst, n + 1 + all.length ≤ number := by
    rcases hending.callsIn_eq with hcalls | hcalls | hcalls | hcalls
    · simp [hcalls]
    · simp [hcalls]
    · simp [hcalls]
    · simp [hcalls]
  rw [callsIn_opening hafter, List.map_cons, List.map_append, List.map_map,
    List.nodup_cons, List.nodup_append]
  refine ⟨?_, hafter.nodup_sent, htail.1, ?_⟩
  · intro hmem
    rcases List.mem_append.mp hmem with hmem | hmem
    · have := hups n hmem
      omega
    · have := htail.2 n hmem
      omega
  · intro a ha b hb
    have := hups a ha
    have := htail.2 b hb
    omega

private theorem receive_opening {number : Nat} {call : Call}
    {reply : Reply call}
    (hmem : Move.receive number call reply
      ∈ opening collection transaction n (ups ++ tail)) :
    Move.receive number call reply
      = .receive n (.createTransaction collection) (.ok transaction) ∨
    Move.receive number call reply ∈ ups ∨
      Move.receive number call reply ∈ tail := by
  rcases List.mem_cons.mp hmem with heq | hmem
  · cases heq
  · rcases List.mem_cons.mp hmem with heq | hmem
    · exact Or.inl heq
    · exact Or.inr (List.mem_append.mp hmem)

/-- The opening was answered with the transaction, and with no other. -/
theorem eq_of_receive_opening {reply : Reply (.createTransaction collection)}
    (hafter : u.After options.workers (n + 1) all ups)
    (hending : Ending collection summary (n + 1 + all.length) u tail result)
    (hmem : Move.receive n (.createTransaction collection) reply
      ∈ opening collection transaction n (ups ++ tail)) :
    reply = .ok transaction := by
  rcases receive_opening hmem with heq | hmem | hmem
  · cases heq
    rfl
  · obtain ⟨batch, heq⟩ := hafter.eq_upsert_of_receive hmem
    cases heq
  · rcases hending.receive_forms hmem with h | h <;> cases h

/-- Answers to batches come with the batches: neither the opening nor what
follows has any. -/
theorem receive_upsert_opening {number : Nat} {batch : Batch}
    {reply : Except CallError Unit}
    (hending : Ending collection summary (n + 1 + all.length) u tail result)
    (hmem : Move.receive number (.upsert batch) reply
      ∈ opening collection transaction n (ups ++ tail)) :
    Move.receive number (.upsert batch) reply ∈ ups := by
  rcases receive_opening hmem with heq | hmem | hmem
  · cases heq
  · exact hmem
  · rcases hending.receive_forms hmem with h | h <;> cases h

/-- Answers to commits come after the batches, during which none is sent. -/
theorem receive_commit_opening {number : Nat} {name : String}
    {id : TransactionId} {reply : Except CallError Unit}
    (hafter : u.After options.workers (n + 1) all ups)
    (hmem : Move.receive number (.commit name id) reply
      ∈ opening collection transaction n (ups ++ tail)) :
    Move.receive number (.commit name id) reply ∈ tail := by
  rcases receive_opening hmem with heq | hmem | hmem
  · cases heq
  · obtain ⟨batch, heq⟩ := hafter.eq_upsert_of_receive hmem
    cases heq
  · exact hmem

/-- After a refusal no batch is sent, though some may be in flight. -/
theorem batchesIn_after_refusal {before after : List Move} {number : Nat}
    {batch : Batch} {e : CallError}
    (hafter : u.After options.workers (n + 1) all ups)
    (hending : Ending collection summary (n + 1 + all.length) u tail result)
    (hsplit : opening collection transaction n (ups ++ tail)
      = before ++ .receive number (.upsert batch) (.error e) :: after) :
    batchesIn after = [] := by
  have hcut : opening collection transaction n ups ++ tail
      = before ++ .receive number (.upsert batch) (.error e) :: after := hsplit
  have hnone : Move.receive number (.upsert batch) (.error e) ∉ tail := by
    intro hmem
    rcases hending.receive_forms hmem with h | h <;> cases h
  obtain ⟨middle, hups, rfl⟩ := exists_append_of_not_mem_right hcut hnone
  have hcut : [Move.send n (.createTransaction collection),
        .receive n (.createTransaction collection) (.ok transaction)] ++ ups
      = before ++ .receive number (.upsert batch) (.error e) :: middle := hups
  obtain ⟨early, -, rfl⟩ := exists_append_of_not_mem_left hcut (by
    intro hmem
    rcases List.mem_cons.mp hmem with heq | hmem
    · cases heq
    · cases List.mem_singleton.mp hmem)
  rw [hafter.eq_nil_of_refusal, List.nil_append, hending.silent.1]

/-- Before a commit all batches were sent and accepted. A commit of less than
all records is impossible by this. -/
theorem complete_before_commit {before after : List Move} {number : Nat}
    {name : String} {id : TransactionId}
    (hafter : u.After options.workers (n + 1) all ups)
    (hending : Ending collection summary (n + 1 + all.length) u tail result)
    (hsplit : opening collection transaction n (ups ++ tail)
      = before ++ .send number (.commit name id) :: after) :
    name = collection ∧ id = summary.transaction ∧
    before = opening collection transaction n ups ∧ u.IsAccepted := by
  have hcut : opening collection transaction n ups ++ tail
      = before ++ .send number (.commit name id) :: after := hsplit
  have hnone : Move.send number (.commit name id)
      ∉ opening collection transaction n ups := by
    intro hmem
    rcases List.mem_cons.mp hmem with heq | hmem
    · cases heq
    · rcases List.mem_cons.mp hmem with heq | hmem
      · cases heq
      · obtain ⟨batch, heq⟩ := hafter.eq_upsert_of_send hmem
        cases heq
  obtain ⟨middle, rfl, htail⟩ := exists_append_of_not_mem_left hcut hnone
  obtain ⟨rfl, hname, htransaction, hu⟩ := hending.commit_first htail
  exact ⟨hname, htransaction, List.append_nil _, hu⟩

/-- Every call but the opening is a batch, or ends the transaction. -/
theorem calls_opening {number : Nat} {call : Call}
    (hafter : u.After options.workers (n + 1) all ups)
    (hending : Ending collection summary (n + 1 + all.length) u tail result)
    (hmem : (number, call) ∈ callsIn
      (opening collection transaction n (ups ++ tail))) :
    (number, call) = (n, .createTransaction collection) ∨
    (number, call) ∈ (batchesIn ups).map
      (fun job => (job.1, Call.upsert job.2)) ∨
    call = .commit collection summary.transaction ∨
    call = .abort collection summary.transaction := by
  rw [callsIn_opening hafter] at hmem
  rcases List.mem_cons.mp hmem with heq | hmem
  · exact Or.inl heq
  rcases List.mem_append.mp hmem with hmem | hmem
  · exact Or.inr (Or.inl hmem)
  refine Or.inr (Or.inr ?_)
  rcases hending.callsIn_eq with hcalls | hcalls | hcalls | hcalls
  · rw [hcalls] at hmem
    cases hmem
  · rw [hcalls] at hmem
    cases List.mem_singleton.mp hmem
    exact Or.inr rfl
  · rw [hcalls] at hmem
    cases List.mem_singleton.mp hmem
    exact Or.inl rfl
  · rw [hcalls] at hmem
    rcases List.mem_cons.mp hmem with heq | hmem
    · cases heq
      exact Or.inl rfl
    · cases List.mem_singleton.mp hmem
      exact Or.inr rfl

/-- A failed upload that has sent a commit has seen it refused, for an accepted
one would have made it succeed. -/
theorem refused_commit_opening {number : Nat} {name : String}
    {id : TransactionId} {e : CallError}
    (hafter : u.After options.workers (n + 1) all ups)
    (hending : Ending collection summary (n + 1 + all.length) u tail
      (some (.error e)))
    (hmem : (number, .commit name id)
      ∈ callsIn (opening collection transaction n (ups ++ tail))) :
    ∃ cause, Move.receive number (.commit name id) (.error cause) ∈
      opening collection transaction n (ups ++ tail) := by
  have hmem : (number, .commit name id) ∈ callsIn tail := by
    rw [callsIn_opening hafter] at hmem
    rcases List.mem_cons.mp hmem with heq | hmem
    · cases heq
    · rcases List.mem_append.mp hmem with hmem | hmem
      · obtain ⟨job, -, heq⟩ := List.mem_map.mp hmem
        cases heq
      · exact hmem
  rcases hending.result_cases with ⟨i, cause, -, -, hcalls⟩ |
    ⟨cause, -, -, hreceive, hcalls⟩ |
    ⟨-, heq, -, -⟩
  · rw [hcalls] at hmem
    cases List.mem_singleton.mp hmem
  · rw [hcalls] at hmem
    rcases List.mem_cons.mp hmem with heq | hmem
    · cases heq
      refine ⟨cause, List.mem_cons_of_mem _ (List.mem_cons_of_mem _ ?_)⟩
      exact List.mem_append_right _ hreceive
    · cases List.mem_singleton.mp hmem
  · cases heq

/-- A failed upload has sent one abort, for its own transaction. -/
theorem abortsIn_of_error {e : CallError}
    (hafter : u.After options.workers (n + 1) all ups)
    (hending : Ending collection summary (n + 1 + all.length) u tail
      (some (.error e))) :
    ∃ number, abortsIn (opening collection transaction n (ups ++ tail))
      = [(number, .abort collection summary.transaction)] := by
  rcases hending.result_cases with ⟨i, cause, -, -, hcalls⟩ |
    ⟨e', -, -, -, hcalls⟩ |
    ⟨-, heq, -, -⟩
  · rw [abortsIn_opening hafter, abortsIn, hcalls]
    exact ⟨_, rfl⟩
  · rw [abortsIn_opening hafter, abortsIn, hcalls]
    exact ⟨_, rfl⟩
  · cases heq

/-- An upload that ends well has sent no abort. -/
theorem abortsIn_of_ok {s : Summary}
    (hafter : u.After options.workers (n + 1) all ups)
    (hending : Ending collection summary (n + 1 + all.length) u tail
      (some (.ok s))) :
    abortsIn (opening collection transaction n (ups ++ tail)) = [] := by
  rcases hending.result_cases with ⟨i, cause, -, heq, -⟩ | ⟨e', -, heq, -, -⟩ |
    ⟨-, -, -, hcalls⟩
  · cases heq
  · cases heq
  · rw [abortsIn_opening hafter, abortsIn, hcalls]
    rfl

/-- Once a batch is refused, the upload can return nothing but this refusal,
with the place of the batch. -/
theorem result_of_refusal {number : Nat} {batch : Batch} {e : CallError}
    (hafter : u.After options.workers (n + 1) all ups)
    (hending : Ending collection summary (n + 1 + all.length) u tail result)
    (hmem : Move.receive number (.upsert batch) (.error e) ∈ ups) :
    n + 1 ≤ number ∧ ∀ returned, result = some returned →
      returned = .error (.batchFailed (number - (n + 1)) e) := by
  obtain ⟨i, hnumber, hrefused⟩ := hafter.refused_of_mem hmem
  refine ⟨by omega, ?_⟩
  intro returned hreturned
  subst hreturned
  rcases hending.result_cases with ⟨j, cause, hrefused', rfl, -⟩ |
    ⟨_, hu, -, -, -⟩ |
    ⟨hu, -, -, -⟩
  · rw [hrefused] at hrefused'
    cases hrefused'
    rw [show number - (n + 1) = i by omega]
  · rw [hu.1] at hrefused
    cases hrefused
  · rw [hu.1] at hrefused
    cases hrefused

end opened

end Upload

end KnnOracle
