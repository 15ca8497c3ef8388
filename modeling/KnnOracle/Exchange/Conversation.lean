/-
Conversations with a service.

A conversation says which calls are made and what is done with their
replies, but not who replies. Most calls are made one after another. Two
kinds of step leave the order of completion open:

* `upload` sends batches, a bounded number of them at a time, until one
  is refused or all are accepted;
* `searchAll` sends searches, again a bounded number at a time, and waits
  for the replies to all of them.

A `Channel` carries the steps out, and `hold` holds the conversation over
a channel. A `Responder` replies to single calls; the channel made of it
completes each call before the next is made.
-/
import KnnOracle.Exchange.Window

namespace KnnOracle

-- ============================================================== events

/-- What a program counts while it runs. -/
inductive Event where
  | batchUpserted
  | batchFailed
  | transactionAborted
  | corpusSize (size : Nat)
  | queryValidated
  | queryFailed
  | queryRecall (value : Float)

-- ======================================================= conversations

/-- A program that talks to a service. -/
inductive Conversation (α : Type) where
  | done (result : α)
  | note (event : Event) (next : Conversation α)
  | ask (call : Call) (next : Reply call → Conversation α)
  | upload (width : Nat) (batches : List Batch) (next : Tally → Conversation α)
  | searchAll (width : Nat) (searches : List SearchRequest)
      (next : List SearchReply → Conversation α)

namespace Conversation

variable {α β : Type}

/-- Goes on with the result of a conversation. -/
def bind (c : Conversation α) (f : α → Conversation β) : Conversation β :=
  match c with
  | .done result => f result
  | .note event next => .note event (next.bind f)
  | .ask call next => .ask call fun reply => (next reply).bind f
  | .upload width batches next =>
      .upload width batches fun tally => (next tally).bind f
  | .searchAll width searches next =>
      .searchAll width searches fun replies => (next replies).bind f

/-- Counts several events. -/
def noteAll (events : List Event) (next : Conversation α) : Conversation α :=
  events.foldr .note next

/-- Goes on with the result of a conversation that can fail. -/
def andThen {ε : Type} (c : Conversation (Except ε α))
    (f : α → Conversation (Except ε β)) :
    Conversation (Except ε β) :=
  c.bind fun
    | .ok a => f a
    | .error e => .done (.error e)

end Conversation

-- ============================================================ channels

/-- A way to carry out the steps of a conversation. -/
structure Channel (m : Type → Type) where
  ask : (call : Call) → m (Reply call)
  upload : (width : Nat) → List Batch → m Tally
  searchAll : (width : Nat) → List SearchRequest → m (List SearchReply)

/-- Holds a conversation over a channel; answers with its result and the
events in order. -/
def Conversation.hold {m : Type → Type} [Monad m] {α : Type}
    (channel : Channel m) :
    Conversation α → m (α × List Event)
  | .done result => pure (result, [])
  | .note event next => do
      let (result, events) ← next.hold channel
      pure (result, event :: events)
  | .ask call next => do
      let reply ← channel.ask call
      (next reply).hold channel
  | .upload width batches next => do
      let tally ← channel.upload width batches
      (next tally).hold channel
  | .searchAll width searches next => do
      let replies ← channel.searchAll width searches
      (next replies).hold channel

-- ======================================================== one at a time

/-- Something that replies to calls. -/
abbrev Responder (m : Type → Type) : Type := (call : Call) → m (Reply call)

namespace Responder

variable {m : Type → Type} [Monad m]

/-- Sends batches in order, up to the first that is refused; `accepted`
counts those before. -/
def upload (r : Responder m) (accepted : Nat) : List Batch → m Tally
  | [] => pure ⟨accepted, none⟩
  | batch :: rest => do
      match ← r (.upsert batch) with
      | .ok () => r.upload (accepted + 1) rest
      | .error e => pure ⟨accepted, some (accepted, e)⟩

/-- Sends searches in order. -/
def searchAll (r : Responder m) : List SearchRequest → m (List SearchReply)
  | [] => pure []
  | request :: rest => do
      let reply ← r (.search request)
      let replies ← r.searchAll rest
      pure (reply :: replies)

/-- The channel that completes each call before the next is made, however
wide a step is. -/
def channel (r : Responder m) : Channel m :=
  { ask := r
    upload := fun _ batches => r.upload 0 batches
    searchAll := fun _ searches => r.searchAll searches }

end Responder

end KnnOracle
