/-
Replies to what was sent.

Whatever is received on a path is the reply to a call that was sent on it.
`Exchange.flying` are the calls that wait for a reply at a moment. A step
receives only replies to them, and a call gets among them only by being sent
(`Step.flying`); so nothing that is received comes from nowhere
(`mem_callsIn_of_receive`).
-/
import KnnOracle.Proofs.Exchange.Paths

namespace KnnOracle

-- ============================================================== windows

namespace Window

variable {β : Type}

private theorem mem_flying_of_start? {w w' : Window β} {job other : Nat × β}
    (hstart : w.start? = some (job, w')) (h : other ∈ w'.flying) :
    other ∈ w.flying ∨ other = job := by
  rw [(start?_eq_some hstart).2.1] at h
  rcases List.mem_append.mp h with h | h
  · exact Or.inl h
  · exact Or.inr (List.mem_singleton.mp h)

private theorem mem_flying_of_finish {w : Window β} {number : Nat}
    {other : Nat × β} (h : other ∈ (w.finish number).flying) :
    other ∈ w.flying :=
  (List.mem_filter.mp h).1

end Window

private theorem Uploading.mem_flying_of_receive {u : Uploading} {number : Nat}
    {reply : Except CallError Unit} {job : Nat × Batch}
    (h : job ∈ (u.receive number reply).window.flying) :
    job ∈ u.window.flying := by
  cases reply with
  | ok done => exact Window.mem_flying_of_finish h
  | error e => exact Window.mem_flying_of_finish h

namespace Exchange

variable {α : Type}

-- ============================================================= in flight

/-- The calls that wait for a reply. -/
def flying (x : Exchange α) : List (Nat × Call) :=
  match x.stage with
  | .ready _ => []
  | .asking number call _ => [(number, call)]
  | .uploading work _ =>
      work.window.flying.map fun job => (job.1, .upsert job.2)
  | .searching work _ =>
      work.window.flying.map fun job => (job.1, .search job.2)

/-- Received are replies to what is in flight, and in flight is what was
sent. -/
structure Step.Flying (x : Exchange α) (moves : List Move) (y : Exchange α) :
    Prop where
  received : ∀ number call (reply : Reply call),
    Move.receive number call reply ∈ moves →
    (number, call) ∈ x.flying
  sent : ∀ job ∈ y.flying, job ∈ x.flying ∨ job ∈ callsIn moves

/-- Step by step, what is in flight was sent, and what is answered was in
flight. -/
theorem Step.flying {x y : Exchange α} {moves : List Move}
    (h : Step x moves y) :
    Step.Flying x moves y := by
  cases h with
  | note event next n => exact ⟨by simp, by simp [Exchange.flying]⟩
  | ask call next n =>
      exact ⟨by simp, by simp [Exchange.flying, callsIn, Move.sent?]⟩
  | answer number call next n reply =>
      refine ⟨fun number' call' reply' hmem => ?_, by simp [Exchange.flying]⟩
      cases List.mem_singleton.mp hmem
      exact List.mem_singleton_self _
  | upload width batches next n =>
      exact ⟨by simp, by simp [Exchange.flying, Uploading.ofBatches,
      Window.ofJobs]⟩
  | sendBatch u u' next n number batch hstart =>
      refine ⟨by simp, fun job hjob => ?_⟩
      obtain ⟨⟨number', batch'⟩, hflying, rfl⟩ := List.mem_map.mp hjob
      unfold Uploading.start? at hstart
      split at hstart
      · cases hstart
      obtain ⟨⟨job, window⟩, hwindow, heq⟩ := Option.map_eq_some_iff.mp hstart
      cases heq
      rcases Window.mem_flying_of_start? hwindow hflying with hold | heq
      · exact Or.inl (List.mem_map.mpr ⟨_, hold, rfl⟩)
      · cases heq
        exact Or.inr (List.mem_singleton_self _)
  | answerBatch u next n number batch hflying hopen reply =>
      refine ⟨fun number' call' reply' hmem => ?_, fun job hjob => ?_⟩
      · cases List.mem_singleton.mp hmem
        exact List.mem_map.mpr ⟨_, hflying, rfl⟩
      · obtain ⟨old, hold, rfl⟩ := List.mem_map.mp hjob
        exact Or.inl
          (List.mem_map.mpr ⟨_, Uploading.mem_flying_of_receive hold, rfl⟩)
  | uploaded u next n tally htally =>
      exact ⟨by simp, by simp [Exchange.flying]⟩
  | searchAll width searches next n =>
      exact ⟨by simp, by simp [Exchange.flying, Searching.ofSearches,
      Window.ofJobs]⟩
  | sendSearch s s' next n number request hstart =>
      refine ⟨by simp, fun job hjob => ?_⟩
      obtain ⟨⟨number', request'⟩, hflying, rfl⟩ := List.mem_map.mp hjob
      obtain ⟨⟨job, window⟩, hwindow, heq⟩ := Option.map_eq_some_iff.mp hstart
      cases heq
      rcases Window.mem_flying_of_start? hwindow hflying with hold | heq
      · exact Or.inl (List.mem_map.mpr ⟨_, hold, rfl⟩)
      · cases heq
        exact Or.inr (List.mem_singleton_self _)
  | answerSearch s next n number request hflying reply =>
      refine ⟨fun number' call' reply' hmem => ?_, fun job hjob => ?_⟩
      · cases List.mem_singleton.mp hmem
        exact List.mem_map.mpr ⟨_, hflying, rfl⟩
      · obtain ⟨old, hold, rfl⟩ := List.mem_map.mp hjob
        exact Or.inl
          (List.mem_map.mpr ⟨_, Window.mem_flying_of_finish hold, rfl⟩)
  | searched s next n replies hreplies =>
      exact ⟨by simp, by simp [Exchange.flying]⟩

-- ============================================================= the paths

/-- An answer on a path is that of a call which was sent on it, or of one
which was in flight when it began. This is the form that goes through the
induction. -/
private theorem mem_callsIn_or_flying {x y : Exchange α} {moves : List Move}
    (h : Path x moves y) {number : Nat} {call : Call} {reply : Reply call}
    (hmem : Move.receive number call reply ∈ moves) :
    (number, call) ∈ callsIn moves ∨ (number, call) ∈ x.flying := by
  induction h with
  | refl x => cases hmem
  | @step x y z moves rest first others ih =>
      rw [callsIn_append]
      rcases List.mem_append.mp hmem with hmem | hmem
      · exact Or.inr (first.flying.received _ _ _ hmem)
      · rcases ih hmem with h | h
        · exact Or.inl (List.mem_append_right _ h)
        · rcases first.flying.sent _ h with h | h
          · exact Or.inr h
          · exact Or.inl (List.mem_append_left _ h)

private theorem callsIn_talkIn (moves : List Move) :
    callsIn (talkIn moves) = callsIn moves := by
  unfold callsIn talkIn
  rw [List.filterMap_filter]
  apply List.filterMap_congr
  intro move _
  cases move <;> rfl

/-- What a conversation receives is the reply to something that it sent. No
reply comes out of nothing, whatever the service does. -/
theorem mem_callsIn_of_receive {c : Conversation α} {n : Nat} {y : Exchange α}
    {moves : List Move} (h : Path ⟨.ready c, n⟩ moves y) {number : Nat}
    {call : Call} {reply : Reply call}
    (hmem : Move.receive number call reply ∈ talkIn moves) :
    (number, call) ∈ callsIn (talkIn moves) := by
  rw [callsIn_talkIn]
  rcases mem_callsIn_or_flying h (List.mem_filter.mp hmem).1 with h | h
  · exact h
  · cases h

end Exchange

end KnnOracle
