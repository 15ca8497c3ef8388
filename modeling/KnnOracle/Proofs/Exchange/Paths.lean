/-
How a conversation begins its way.

A path from a conversation that is about to go on starts with what the
conversation says first. Each lemma here takes one kind of conversation
and tells what its paths are: they stop before they got through the first
step, or they are that step and a path of what comes after it. Chained
along a conversation, the lemmas spell out everything that can ever be
seen of it.

# Talk

Counting events changes nothing between the two sides, so paths are
described by their *talk*: what is sent and received, in order
(`talkIn`). `Exchange.result?` is what a path has come to, if it has come
to its end.
-/
import Mathlib.Data.List.Basic
import KnnOracle.Exchange.Schedule

namespace KnnOracle

-- ============================================================ the talk

namespace Move

/-- Whether something goes to the service or comes from it. -/
def isTalk : Move → Bool
  | .note _ => false
  | .send _ _ => true
  | .receive _ _ _ => true

/-- The call that is sent, if one is. -/
def sent? : Move → Option (Nat × Call)
  | .send number call => some (number, call)
  | _ => none

/-- The batch that is sent, if one is. -/
def batch? : Move → Option (Nat × Batch)
  | .send number (.upsert batch) => some (number, batch)
  | _ => none

/-- The batch that is answered, if one is, and its answer. -/
def answer? : Move → Option ((Nat × Batch) × Except CallError Unit)
  | .receive number (.upsert batch) reply => some ((number, batch), reply)
  | _ => none

end Move

/-- What is sent and received, in order. -/
def talkIn (moves : List Move) : List Move := moves.filter Move.isTalk

/-- The calls that are sent, in order. -/
def callsIn (moves : List Move) : List (Nat × Call) :=
  moves.filterMap Move.sent?

/-- The batches that are sent, in order. -/
def batchesIn (moves : List Move) : List (Nat × Batch) :=
  moves.filterMap Move.batch?

/-- The batches that are answered, in order of the answers. -/
def answersIn (moves : List Move) :
    List ((Nat × Batch) × Except CallError Unit) :=
  moves.filterMap Move.answer?

theorem talkIn_append (moves rest : List Move) :
    talkIn (moves ++ rest) = talkIn moves ++ talkIn rest :=
      List.filter_append ..

theorem callsIn_append (moves rest : List Move) :
    callsIn (moves ++ rest) = callsIn moves ++ callsIn rest :=
      List.filterMap_append

theorem batchesIn_append (moves rest : List Move) :
    batchesIn (moves ++ rest) = batchesIn moves ++ batchesIn rest :=
      List.filterMap_append

theorem answersIn_append (moves rest : List Move) :
    answersIn (moves ++ rest) = answersIn moves ++ answersIn rest :=
      List.filterMap_append

theorem mem_callsIn {moves : List Move} {number : Nat} {call : Call} :
    (number, call) ∈ callsIn moves ↔ Move.send number call ∈ moves := by
  unfold callsIn
  rw [List.mem_filterMap]
  constructor
  · rintro ⟨move, hmove, heq⟩
    cases move with
    | note event => cases heq
    | send number call =>
        cases heq
        exact hmove
    | receive number call reply => cases heq
  · intro h
    exact ⟨_, h, rfl⟩

theorem mem_batchesIn {moves : List Move} {number : Nat} {batch : Batch} :
    (number, batch) ∈ batchesIn moves ↔
      Move.send number (.upsert batch) ∈ moves := by
  unfold batchesIn
  rw [List.mem_filterMap]
  constructor
  · rintro ⟨move, hmove, heq⟩
    cases move with
    | note event => cases heq
    | send number call =>
        cases call with
        | upsert batch =>
            cases heq
            exact hmove
        | _ => cases heq
    | receive number call reply => cases heq
  · intro h
    exact ⟨_, h, rfl⟩

theorem mem_answersIn {moves : List Move} {number : Nat} {batch : Batch}
    {reply : Except CallError Unit} :
    ((number, batch), reply) ∈ answersIn moves ↔
      Move.receive number (.upsert batch) reply ∈ moves := by
  unfold answersIn
  rw [List.mem_filterMap]
  constructor
  · rintro ⟨move, hmove, heq⟩
    cases move with
    | note event => cases heq
    | send number call => cases heq
    | receive number call answer =>
        cases call with
        | upsert batch =>
            cases heq
            exact hmove
        | _ => cases heq
  · intro h
    exact ⟨_, h, rfl⟩

-- ========================================================== the paths

namespace Exchange

variable {α : Type}

/-- What the exchange has come to, if it has come to its end. -/
def result? (x : Exchange α) : Option α :=
  match x.stage with
  | .ready (.done result) => some result
  | _ => none

/-- A conversation that is done says nothing more, and its result is there. -/
theorem path_done {result : α} {n : Nat} {moves : List Move} {x : Exchange α}
    (h : Path ⟨.ready (.done result), n⟩ moves x) :
    moves = [] ∧ x.result? = some result := by
  cases h with
  | refl _ => exact ⟨rfl, rfl⟩
  | step first _ => cases first

/-- Counting an event comes first, and is no talk. So events may be left out of
a description of what is said. -/
theorem path_note {event : Event} {next : Conversation α} {n : Nat}
    {moves : List Move} {x : Exchange α}
    (h : Path ⟨.ready (.note event next), n⟩ moves x) :
    (talkIn moves = [] ∧ x.result? = none) ∨
    ∃ rest, talkIn moves = talkIn rest ∧ Path ⟨.ready next, n⟩ rest x := by
  cases h with
  | refl _ => exact Or.inl ⟨rfl, rfl⟩
  | @step _ _ _ _ rest first others =>
      cases first with
      | note _ _ _ => exact Or.inr ⟨rest, rfl, others⟩

theorem path_noteAll {events : List Event} {next : Conversation α} {n : Nat}
    {moves : List Move} {x : Exchange α}
    (h : Path ⟨.ready (.noteAll events next), n⟩ moves x) :
    (talkIn moves = [] ∧ x.result? = none) ∨
    ∃ rest, talkIn moves = talkIn rest ∧ Path ⟨.ready next, n⟩ rest x := by
  induction events generalizing moves with
  | nil => exact Or.inr ⟨moves, rfl, h⟩
  | cons event events ih =>
      rcases path_note h with h | ⟨rest, htalk, h⟩
      · exact Or.inl h
      · rcases ih h with ⟨hnone, hresult⟩ | ⟨rest', htalk', h'⟩
        · exact Or.inl ⟨htalk.trans hnone, hresult⟩
        · exact Or.inr ⟨rest', htalk.trans htalk', h'⟩

/-- A call is sent, and answered, and then the conversation goes on with the
reply. A path may also end before either of the two. -/
theorem path_ask {call : Call} {next : Reply call → Conversation α} {n : Nat}
    {moves : List Move} {x : Exchange α}
    (h : Path ⟨.ready (.ask call next), n⟩ moves x) :
    (talkIn moves = [] ∧ x.result? = none) ∨
    (talkIn moves = [.send n call] ∧ x.result? = none) ∨
    ∃ reply rest, talkIn moves
      = .send n call :: .receive n call reply :: talkIn rest ∧
      Path ⟨.ready (next reply), n + 1⟩ rest x := by
  cases h with
  | refl _ => exact Or.inl ⟨rfl, rfl⟩
  | step first others =>
      cases first with
      | ask _ _ _ =>
          cases others with
          | refl _ => exact Or.inr (Or.inl ⟨rfl, rfl⟩)
          | @step _ _ _ _ rest second others =>
              cases second with
              | answer _ _ _ _ reply =>
                  exact Or.inr (Or.inr ⟨reply, rest, rfl, others⟩)

end Exchange

end KnnOracle
