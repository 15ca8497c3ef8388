/-
What is seen of an upload.

The machine of an upload keeps little: the batches that wait, those in
flight, a count, and the first refusal. What is seen of it says more: in
which order batches were sent and answered, and with what. This file ties
the two together, and from then on the machine can be forgotten.

# The invariant

`Uploading.After width first batches moves u` says that `u` is the machine
after `moves`. What was sent and what waits are all batches in their
order; what is in flight and what was answered are what was sent, in some
order; every answer was good until one was bad, and that one was the
last. A step keeps the invariant (`After.send`, `After.receive`), so every
path does (`Exchange.path_uploading`).

Taking a batch out of flight filters by its number. That this takes out
one batch and no more rests on numbers being given once.
-/
import Mathlib.Data.List.Nodup
import Mathlib.Data.List.Perm.Subperm
import KnnOracle.Proofs.Exchange.Paths

namespace KnnOracle

-- ==================================================== numbers and windows

namespace Window

variable {β : Type}

/-- A numbered job stands as far from the first as its number says. -/
theorem mem_number {first number : Nat} {job : β} {jobs : List β} :
    (number, job) ∈ Window.number first jobs ↔
      ∃ i, number = first + i ∧ jobs[i]? = some job := by
  induction jobs generalizing first with
  | nil => simp [Window.number]
  | cons head rest ih =>
      rw [Window.number, List.mem_cons, ih]
      constructor
      · rintro (h | ⟨i, hnumber, hjob⟩)
        · cases h
          exact ⟨0, rfl, rfl⟩
        · exact ⟨i + 1, by omega, hjob⟩
      · rintro ⟨i, hnumber, hjob⟩
        cases i with
        | zero =>
            cases hjob
            exact Or.inl (Prod.ext hnumber rfl)
        | succ i => exact Or.inr ⟨i, by omega, hjob⟩

theorem map_snd_number (first : Nat) (jobs : List β) :
    (Window.number first jobs).map Prod.snd = jobs := by
  induction jobs generalizing first with
  | nil => rfl
  | cons head rest ih => rw [Window.number, List.map_cons, ih]

/-- No number is given twice, so that answers cannot be mixed up. -/
theorem nodup_number (first : Nat) (jobs : List β) :
    ((Window.number first jobs).map Prod.fst).Nodup := by
  induction jobs generalizing first with
  | nil => exact List.nodup_nil
  | cons head rest ih =>
      rw [Window.number, List.map_cons, List.nodup_cons]
      refine ⟨?_, ih (first + 1)⟩
      intro hmem
      obtain ⟨⟨number, job⟩, hjob, hnumber⟩ := List.mem_map.mp hmem
      obtain ⟨i, hi, -⟩ := mem_number.mp hjob
      -- the later numbers are larger
      have : number = first := hnumber
      omega

/-- Where numbers differ, filtering by a number takes one job out. The program
finds a job in flight in this way. -/
theorem perm_cons_filter {number : Nat} {job : β} {jobs : List (Nat × β)}
    (hnodup : (jobs.map Prod.fst).Nodup) (h : (number, job) ∈ jobs) :
    jobs.Perm ((number, job) :: jobs.filter fun other =>
      other.1 != number) := by
  induction jobs with
  | nil => cases h
  | cons head rest ih =>
      rw [List.map_cons, List.nodup_cons] at hnodup
      rcases List.mem_cons.mp h with heq | hmem
      · subst heq
        have hrest : (rest.filter fun other => other.1 != number) = rest := by
          rw [List.filter_eq_self]
          intro other hother
          have hne : other.1 ≠ number := fun heq =>
            hnodup.1 (List.mem_map.mpr ⟨other, hother, heq⟩)
          exact bne_iff_ne.mpr hne
        rw [List.filter_cons_of_neg (by simp), hrest]
      · have hne : head.1 ≠ number := fun heq =>
          hnodup.1 (List.mem_map.mpr ⟨(number, job), hmem, heq.symm⟩)
        rw [List.filter_cons, if_pos (bne_iff_ne.mpr hne)]
        exact ((ih hnodup.2 hmem).cons head).trans (List.Perm.swap _ _ _)

end Window

-- ========================================================= the invariant

namespace Uploading

/-- Every batch was accepted. -/
def IsAccepted (u : Uploading) : Prop :=
  u.refused? = none ∧ u.window.isOver = true

/-- The tally tells the refusal, if there is one; otherwise every batch was
accepted. -/
theorem tally?_eq_some {u : Uploading} {tally : Tally}
    (h : u.tally? = some tally) :
    tally.refused? = u.refused? ∧ (tally.refused? = none → u.IsAccepted) := by
  unfold tally? at h
  split at h
  · next hover =>
      cases h
      refine ⟨rfl, ?_⟩
      intro hnone
      have hnone' : u.refused? = none := hnone
      rw [hnone'] at hover
      exact ⟨hnone', hover⟩
  · cases h

/-- An upload of batches with numbers from `first` on, at most `width` of
them in flight, stands at `u` after what was seen. -/
structure After (width first : Nat) (batches : List Batch) (moves : List Move)
    (u : Uploading) : Prop where
  first_eq : u.first = first
  width_eq : u.window.width = width
  /-- Nothing but batches is sent, and nothing else is answered. -/
  only : ∀ move ∈ moves, move.batch?.isSome ∨ move.answer?.isSome
  /-- Batches are sent in their order. -/
  sent : batchesIn moves ++ u.window.waiting = Window.number first batches
  /-- What was sent is in flight or was answered. -/
  flying : (u.window.flying ++ (answersIn moves).map Prod.fst).Perm
    (batchesIn moves)
  room : u.window.flying.length ≤ max 1 width
  /-- Where nothing was refused, all answers were good. -/
  good : u.refused? = none → ∀ answer ∈ answersIn moves, answer.2 = .ok ()
  /-- What was refused was answered last, and all answers before were
  good. -/
  bad : ∀ i e, u.refused? = some (i, e) → ∃ before batch,
    moves = before ++ [.receive (first + i) (.upsert batch) (.error e)] ∧
      ∀ answer ∈ answersIn before, answer.2 = .ok ()

namespace After

variable {width first number : Nat} {batches : List Batch} {moves : List Move}
  {u u' : Uploading} {batch : Batch}

/-- Before anything is seen nothing was sent, and the invariant holds. -/
theorem ofBatches (width first : Nat) (batches : List Batch) :
    After width first batches [] (.ofBatches width first batches) where
  first_eq := rfl
  width_eq := rfl
  only := by
    intro move h
    cases h
  sent := rfl
  flying := List.Perm.refl _
  room := Nat.zero_le _
  good := by
    intro _ answer h
    cases h
  bad := by
    intro i e h
    cases h

/-- No two batches are sent under one number. -/
theorem nodup_sent (h : After width first batches moves u) :
    ((batchesIn moves).map Prod.fst).Nodup := by
  have hnodup := Window.nodup_number first batches
  rw [← h.sent, List.map_append] at hnodup
  exact hnodup.of_append_left

/-- No two batches in flight have one number, which is how a reply finds its
batch. -/
theorem nodup_flying (h : After width first batches moves u) :
    (u.window.flying.map Prod.fst).Nodup := by
  have hnodup := (h.flying.map Prod.fst).nodup_iff.mpr h.nodup_sent
  rw [List.map_append] at hnodup
  exact hnodup.of_append_left

/-- A batch in flight has a number of this upload, and not an older one. -/
private theorem le_of_mem_flying (h : After width first batches moves u)
    (hmem : (number, batch) ∈ u.window.flying) : first ≤ number := by
  have hsent : (number, batch) ∈ batchesIn moves :=
    h.flying.subset (List.mem_append_left _ hmem)
  have hjob : (number, batch) ∈ Window.number first batches := by
    rw [← h.sent]
    exact List.mem_append_left _ hsent
  obtain ⟨i, hi, -⟩ := Window.mem_number.mp hjob
  omega

/-- Sending the next batch keeps the invariant: the batches that were sent are
still the first ones, and the window has room. -/
theorem send (h : After width first batches moves u)
    (hstart : u.start? = some ((number, batch), u')) :
    After width first batches (moves ++ [.send number (.upsert batch)])
      u' := by
  unfold Uploading.start? at hstart
  cases hrefused : u.refused? with
  | some refusal =>
      rw [hrefused] at hstart
      cases hstart
  | none =>
      rw [hrefused] at hstart
      obtain ⟨⟨job, window⟩, hwindow, heq⟩ := Option.map_eq_some_iff.mp hstart
      cases heq
      obtain ⟨hwaiting, hflying, hwidth, hroom⟩ :=
        Window.start?_eq_some hwindow
      have hbatches : batchesIn (moves ++ [.send number (.upsert batch)])
          = batchesIn moves ++ [(number, batch)] := batchesIn_append ..
      have hanswers : answersIn (moves ++ [.send number (.upsert batch)])
          = answersIn moves := by
        rw [answersIn_append]
        exact List.append_nil _
      constructor
      case first_eq => exact h.first_eq
      case width_eq => exact hwidth.trans h.width_eq
      case only =>
        intro move hmove
        rcases List.mem_append.mp hmove with hmove | hmove
        · exact h.only move hmove
        · cases List.mem_singleton.mp hmove
          exact Or.inl rfl
      case sent =>
        show batchesIn _ ++ window.waiting = _
        rw [hbatches, List.append_assoc, List.singleton_append, ← hwaiting]
        exact h.sent
      case flying =>
        show (window.flying ++ _).Perm _
        rw [hflying, hbatches, hanswers, List.append_assoc]
        -- the batch moves from the middle to the end
        refine (List.Perm.append_left _ List.perm_append_comm).trans ?_
        rw [← List.append_assoc]
        exact h.flying.append_right _
      case room =>
        show window.flying.length ≤ _
        rwa [h.width_eq] at hroom
      case good =>
        rw [hanswers]
        exact fun _ => h.good hrefused
      case bad =>
        intro i e hsome
        cases hsome

/-- Receiving the answer to a batch in flight keeps the invariant, as long as
nothing was refused. After a refusal nothing is received any more. -/
theorem receive (h : After width first batches moves u)
    (hopen : u.refused? = none) (hmem : (number, batch) ∈ u.window.flying)
    (reply : Reply (.upsert batch)) :
    After width first batches
      (moves ++ [.receive number (.upsert batch) reply])
      (u.receive number reply) := by
  have hbatches : batchesIn (moves ++ [.receive number (.upsert batch) reply])
      = batchesIn moves := by
    rw [batchesIn_append]
    exact List.append_nil _
  have hanswers : answersIn (moves ++ [.receive number (.upsert batch) reply])
      = answersIn moves ++ [((number, batch), reply)] := answersIn_append ..
  have hwindow : (u.receive number reply).window = u.window.finish number := by
    cases reply <;> rfl
  constructor
  case first_eq =>
    cases reply <;> exact h.first_eq
  case width_eq =>
    rw [hwindow]
    exact h.width_eq
  case only =>
    intro move hmove
    rcases List.mem_append.mp hmove with hmove | hmove
    · exact h.only move hmove
    · cases List.mem_singleton.mp hmove
      exact Or.inr rfl
  case sent =>
    rw [hbatches, hwindow]
    exact h.sent
  case flying =>
    rw [hbatches, hanswers, hwindow, List.map_append]
    have hout := Window.perm_cons_filter h.nodup_flying hmem
    -- the batch moves from those in flight to the answered ones
    have hmoved :=
      (hout.append_right ((answersIn moves).map Prod.fst)).symm.trans h.flying
    refine List.Perm.trans ?_ hmoved
    rw [← List.append_assoc]
    exact List.perm_append_comm
  case room =>
    rw [hwindow]
    exact Nat.le_trans (List.length_filter_le _ _) h.room
  case good =>
    intro hnone answer hanswer
    rw [hanswers] at hanswer
    cases reply with
    | error e => cases hnone
    | ok done =>
        rcases List.mem_append.mp hanswer with hanswer | hanswer
        · exact h.good hopen answer hanswer
        · cases List.mem_singleton.mp hanswer
          rfl
  case bad =>
    intro i e hsome
    cases reply with
    | ok done =>
        rw [show u.refused? = some (i, e) from hsome] at hopen
        cases hopen
    | error cause =>
        cases hsome
        refine ⟨moves, batch, ?_, h.good hopen⟩
        have hle := h.le_of_mem_flying hmem
        rw [h.first_eq, show first + (number - first) = number by omega]

-- ======================================================= what it tells

/-- All that is seen of an upload goes to the service or comes from it, so no
event is lost by looking at the talk only. -/
theorem talkIn_eq (h : After width first batches moves u) :
    talkIn moves = moves := by
  unfold talkIn
  rw [List.filter_eq_self]
  intro move hmove
  cases move with
  | note event =>
      have := h.only _ hmove
      rcases this with h | h <;> cases h
  | send number call => rfl
  | receive number call reply => rfl

theorem callsIn_eq (h : After width first batches moves u) :
    callsIn moves = (batchesIn moves).map fun job =>
      (job.1, .upsert job.2) := by
  have honly := h.only
  clear h
  induction moves with
  | nil => rfl
  | cons move moves ih =>
      have htail :=
        ih fun other hother => honly other (List.mem_cons_of_mem _ hother)
      have hhead := honly move (List.mem_cons_self ..)
      cases move with
      | note event => rcases hhead with h | h <;> cases h
      | send number call =>
          cases call with
          | upsert batch =>
              exact congrArg ((number, Call.upsert batch) :: ·) htail
          | _ => rcases hhead with h | h <;> cases h
      | receive number call reply => exact htail

/-- Whatever is sent is a batch. What follows an upload is told from it by
this. -/
theorem eq_upsert_of_send {call : Call} (h : After width first batches moves u)
    (hmem : Move.send number call ∈ moves) :
    ∃ batch, call = .upsert batch := by
  cases call with
  | upsert batch => exact ⟨batch, rfl⟩
  | _ => rcases h.only _ hmem with h | h <;> cases h

theorem eq_upsert_of_receive {call : Call} {reply : Reply call}
    (h : After width first batches moves u)
    (hmem : Move.receive number call reply ∈ moves) :
    ∃ batch, call = .upsert batch := by
  cases call with
  | upsert batch => exact ⟨batch, rfl⟩
  | _ => rcases h.only _ hmem with h | h <;> cases h

/-- Only what was sent is answered, and only once. Together with the count of
batches this makes a full tally mean that all were accepted. -/
theorem answered_subperm (h : After width first batches moves u) :
    ((answersIn moves).map Prod.fst).Subperm (batchesIn moves) :=
  (List.sublist_append_right _ _).subperm.trans h.flying.subperm

/-- No more batches are in flight than the window is wide, and one at least, so
that a window of no width does not stand still. -/
theorem length_sent_le (h : After width first batches moves u) :
    (batchesIn moves).length ≤ (answersIn moves).length + max 1 width := by
  have hlength := h.flying.length_eq
  rw [List.length_append, List.length_map] at hlength
  have := h.room
  omega

/-- A bad answer is the last thing that is seen: the upload stops there,
whatever is still in flight. -/
theorem eq_nil_of_refusal {before after : List Move} {e : CallError}
    (h : After width first batches
      (before ++ .receive number (.upsert batch) (.error e) :: after) u) :
    after = [] := by
  have hanswer : ((number, batch), .error e) ∈
      answersIn
        (before ++ .receive number (.upsert batch) (.error e) :: after) := by
    rw [answersIn_append]
    exact List.mem_append_right _ (List.mem_cons_self ..)
  cases hrefused : u.refused? with
  | none => cases h.good hrefused _ hanswer
  | some refusal =>
      obtain ⟨i, cause⟩ := refusal
      obtain ⟨before', batch', hmoves, hgood⟩ := h.bad i cause hrefused
      by_contra hne
      -- otherwise the bad answer is among those that were good
      obtain ⟨middle, last, rfl⟩ :=
        (List.eq_nil_or_concat after).resolve_left hne
      rw [List.concat_eq_append, ← List.cons_append, ← List.append_assoc]
        at hmoves
      have hbefore := (List.append_inj' hmoves rfl).1
      have hmem : ((number, batch), .error e) ∈ answersIn before' := by
        rw [← hbefore, answersIn_append]
        exact List.mem_append_right _ (List.mem_cons_self ..)
      cases hgood _ hmem

/-- A bad answer that was seen is the refusal that is kept, so the error that
is returned names the right batch. -/
theorem refused_of_mem {e : CallError} (h : After width first batches moves u)
    (hmem : Move.receive number (.upsert batch) (.error e) ∈ moves) :
    ∃ i, number = first + i ∧ u.refused? = some (i, e) := by
  obtain ⟨before, after, rfl⟩ := List.append_of_mem hmem
  cases hrefused : u.refused? with
  | none =>
      have hanswer : ((number, batch), .error e) ∈
          answersIn
            (before ++ .receive number (.upsert batch) (.error e)
              :: after) := by
        rw [answersIn_append]
        exact List.mem_append_right _ (List.mem_cons_self ..)
      cases h.good hrefused _ hanswer
  | some refusal =>
      obtain ⟨i, cause⟩ := refusal
      obtain ⟨before', batch', hmoves, -⟩ := h.bad i cause hrefused
      rw [h.eq_nil_of_refusal] at hmoves
      -- both are the last move
      cases (List.append_inj' hmoves rfl).2
      exact ⟨i, rfl, rfl⟩

/-- An upload that was accepted sent every batch and had a good answer to every
batch. This is what a commit relies on. -/
theorem accepted (h : After width first batches moves u) (hu : u.IsAccepted) :
    batchesIn moves = Window.number first batches ∧
    ((answersIn moves).map Prod.fst).Perm (Window.number first batches) ∧
    ∀ answer ∈ answersIn moves, answer.2 = .ok () := by
  obtain ⟨hnone, hover⟩ := hu
  have hempty : u.window.waiting = [] ∧ u.window.flying = [] := by
    simpa [Window.isOver] using hover
  have hsent := h.sent
  have hflying := h.flying
  rw [hempty.1, List.append_nil] at hsent
  rw [hempty.2, List.nil_append, hsent] at hflying
  exact ⟨hsent, hflying, h.good hnone⟩

end After

end Uploading

-- ============================================================= the paths

namespace Exchange

variable {α : Type} {width first n : Nat} {batches : List Batch}
  {next : Tally → Conversation α} {moves : List Move} {x : Exchange α}

/-- A path that starts within an upload stays within it, or leaves it with a
tally. The induction is on the path, with `After` as what each step keeps. -/
theorem path_uploading {u : Uploading} {before : List Move}
    (h : Path ⟨.uploading u next, n⟩ moves x)
    (hafter : u.After width first batches before) :
    (∃ u' : Uploading, u'.After width first batches (before ++ moves) ∧
      x.result? = none) ∨
    ∃ (u' : Uploading) (tally : Tally) (ups rest : List Move),
      moves = ups ++ rest ∧
      u'.After width first batches (before ++ ups) ∧ u'.tally? = some tally ∧
      Path ⟨.ready (next tally), n⟩ rest x := by
  generalize hstart : (⟨.uploading u next, n⟩ : Exchange α) = start at h
  induction h generalizing u before with
  | refl y =>
      subst hstart
      rw [List.append_nil]
      exact Or.inl ⟨u, hafter, rfl⟩
  | @step y z w seen rest first others ih =>
      subst hstart
      cases first with
      | sendBatch u u' next n number batch hstart =>
          rcases ih (hafter.send hstart) rfl with ⟨v, hv, hnone⟩ |
            ⟨v, tally, ups, tail, rfl, hv⟩
          · rw [List.append_assoc] at hv
            exact Or.inl ⟨v, hv, hnone⟩
          · rw [List.append_assoc] at hv
            exact Or.inr ⟨v, tally, _ ++ ups, tail,
              (List.append_assoc ..).symm, hv⟩
      | answerBatch u next n number batch hmem hopen reply =>
          rcases ih (hafter.receive hopen hmem reply) rfl with
            ⟨v, hv, hnone⟩ | ⟨v, tally, ups, tail, rfl, hv⟩
          · rw [List.append_assoc] at hv
            exact Or.inl ⟨v, hv, hnone⟩
          · rw [List.append_assoc] at hv
            exact Or.inr ⟨v, tally, _ ++ ups, tail,
              (List.append_assoc ..).symm, hv⟩
      | uploaded u next n tally htally =>
          refine Or.inr ⟨u, tally, [], rest, rfl, ?_, htally, others⟩
          rwa [List.append_nil]

/-- An upload comes first, and then the conversation goes on with its tally. -/
theorem path_upload
    (h : Path ⟨.ready (.upload width batches next), n⟩ moves x) :
    (∃ u : Uploading, u.After width n batches moves ∧ x.result? = none) ∨
    ∃ (u : Uploading) (tally : Tally) (ups rest : List Move),
      moves = ups ++ rest ∧
      u.After width n batches ups ∧ u.tally? = some tally ∧
      Path ⟨.ready (next tally), n + batches.length⟩ rest x := by
  cases h with
  | refl _ => exact Or.inl ⟨_, .ofBatches width n batches, rfl⟩
  | step first others =>
      cases first with
      | upload _ _ _ _ =>
          exact path_uploading others (.ofBatches width n batches)

end Exchange

end KnnOracle
