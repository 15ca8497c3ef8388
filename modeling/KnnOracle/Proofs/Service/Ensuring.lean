/-
Going through a conversation.

`Conversation.Ensures` goes through a conversation with a service call by
call, as if each were answered at once, and says what it comes to. Jobs
in flight reach the service in any order; of an upload two things are
asked instead of one order: that every batch is accepted, whichever were
accepted before, and that what follows is right for every order in which
they can have arrived. Searches change nothing, so their order does not
matter.

`ensures_bind` and `ensures_andThen` put the parts of a conversation
together.
-/
import KnnOracle.Proofs.Service.Meeting

namespace KnnOracle

open Service

/-- The service after batches, one after the other. -/
def afterBatches (o : Options) (s : State) (batches : List Batch) : State :=
  batches.foldl (fun s batch => (meet o s (.upsert batch)).2) s

/-- Every batch is accepted, whichever were accepted before. -/
def Accepts (o : Options) (s : State) (batches : List Batch) : Prop :=
  ∀ arrived batch, (arrived ++ [batch]).Subperm batches →
    (meet o (afterBatches o s arrived) (.upsert batch)).1 = .ok ()

/-- What a service answers to searches. -/
def answers (o : Options) (s : State) (searches : List SearchRequest) :
    List SearchReply :=
  searches.map fun r => (meet o s (.search r)).1

namespace Conversation

variable {α β ε : Type}

/-- Going through a conversation with a service in a state leads to a
result and a service as they should be. -/
def Ensures (o : Options) : Conversation α → State → (α → State → Prop) → Prop
  | .done result, s, Q => Q result s
  | .note _ next, s, Q => next.Ensures o s Q
  | .ask call next, s, Q =>
      (next (meet o s call).1).Ensures o (meet o s call).2 Q
  | .upload _ batches next, s, Q =>
      Accepts o s batches ∧ ∀ arrived, arrived.Perm batches →
        (next ⟨batches.length, none⟩).Ensures o (afterBatches o s arrived) Q
  | .searchAll _ searches next, s, Q =>
      (next (answers o s searches)).Ensures o s Q

variable {o : Options} {s : State} {Q Q' : α → State → Prop}

theorem Ensures.imp {c : Conversation α} (h : c.Ensures o s Q)
    (himp : ∀ result s, Q result s → Q' result s) : c.Ensures o s Q' := by
  induction c generalizing s with
  | done result => exact himp result s h
  | note event next ih => exact ih h
  | ask call next ih => exact ih _ h
  | upload width batches next ih =>
      exact ⟨h.1, fun arrived harrived => ih _ (h.2 arrived harrived)⟩
  | searchAll width searches next ih => exact ih _ h

/-- What a conversation ensures is ensured step by step: first what comes
before, then what follows in the state that it left. Loads and validations are
put together in this way. -/
theorem ensures_bind {c : Conversation α} {f : α → Conversation β}
    {R : β → State → Prop} :
    (c.bind f).Ensures o s R ↔
      c.Ensures o s fun a s' => (f a).Ensures o s' R := by
  induction c generalizing s with
  | done result => exact Iff.rfl
  | note event next ih => exact ih
  | ask call next ih => exact ih _
  | upload width batches next ih =>
      exact and_congr_right fun _ => forall_congr' fun arrived =>
        forall_congr' fun _ => ih _
  | searchAll width searches next ih => exact ih _

/-- A call is answered at once, and what follows begins with the answer and the
state after it. -/
theorem ensures_ask {call : Call} {next : Reply call → Conversation α}
    {reply : Reply call} {s' : State} (h : meet o s call = (reply, s')) :
    (ask call next).Ensures o s Q ↔ (next reply).Ensures o s' Q := by
  show (next (meet o s call).1).Ensures o (meet o s call).2 Q ↔ _
  rw [h]

/-- A conversation that goes well goes on, in the state that it left. -/
theorem ensures_andThen {c : Conversation (Except ε α)}
    {f : α → Conversation (Except ε β)} {R : Except ε β → State → Prop}
    (h : c.Ensures o s fun result s' => ∃ a, result = .ok a ∧
      (f a).Ensures o s' R) :
    (c.andThen f).Ensures o s R := by
  refine ensures_bind.mpr (h.imp ?_)
  rintro result s' ⟨a, rfl, hnext⟩
  exact hnext

theorem ensures_noteAll {events : List Event} {next : Conversation α} :
    (noteAll events next).Ensures o s Q ↔ next.Ensures o s Q := by
  induction events with
  | nil => exact Iff.rfl
  | cons event events ih => exact ih

end Conversation

end KnnOracle
