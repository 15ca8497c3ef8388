/-
Conversations with any service.

Holding a conversation over a channel is one way to hold it. This module
says what all the ways have in common: which calls may be sent when, and
what becomes of the replies. Nothing is assumed of the service. It may
reply to a call what it likes, when it likes, and to calls in flight in
any order.

# The relation

An `Exchange` is a conversation under way. `Exchange.Step` relates it to
what it may be next, and tells what happened: a call was sent, a reply
was received, an event was counted, or nothing that shows. Calls carry
numbers, which are never given twice; a call of an upload or a search has
the number of its job. `Exchange.Path` strings steps together, and
`Conversation.Reaches` starts at the beginning.

A path may stop anywhere. What holds of every path holds at every moment
of every way to hold the conversation.
-/
import KnnOracle.Exchange.Conversation

namespace KnnOracle

-- ============================================================ the stages

/-- Where a conversation stands. -/
inductive Stage (α : Type) where
  /-- It is about to go on. -/
  | ready (next : Conversation α)
  /-- It waits for the reply to one call. -/
  | asking (number : Nat) (call : Call) (next : Reply call → Conversation α)
  | uploading (work : Uploading) (next : Tally → Conversation α)
  | searching (work : Searching) (next : List SearchReply → Conversation α)

/-- A conversation under way. The numbers below `fresh` are given. -/
structure Exchange (α : Type) where
  stage : Stage α
  fresh : Nat

/-- What can be seen of a step. -/
inductive Move where
  | note (event : Event)
  | send (number : Nat) (call : Call)
  | receive (number : Nat) (call : Call) (reply : Reply call)

namespace Exchange

variable {α : Type}

-- ============================================================= the steps

/-- What may happen next, and what is seen of it. -/
inductive Step : Exchange α → List Move → Exchange α → Prop where
  | note (event : Event) (next : Conversation α) (n : Nat) :
      Step ⟨.ready (.note event next), n⟩ [.note event] ⟨.ready next, n⟩
  | ask (call : Call) (next : Reply call → Conversation α) (n : Nat) :
      Step ⟨.ready (.ask call next), n⟩ [.send n call]
        ⟨.asking n call next, n + 1⟩
  | answer (number : Nat) (call : Call) (next : Reply call → Conversation α)
      (n : Nat)
      (reply : Reply call) :
      Step ⟨.asking number call next, n⟩ [.receive number call reply]
        ⟨.ready (next reply), n⟩
  /-- All batches get their numbers at once. -/
  | upload (width : Nat) (batches : List Batch) (next : Tally → Conversation α)
      (n : Nat) :
      Step ⟨.ready (.upload width batches next), n⟩ []
        ⟨.uploading (.ofBatches width n batches) next, n + batches.length⟩
  | sendBatch (u u' : Uploading) (next : Tally → Conversation α)
      (n number : Nat)
      (batch : Batch) (h : u.start? = some ((number, batch), u')) :
      Step ⟨.uploading u next, n⟩ [.send number (.upsert batch)]
        ⟨.uploading u' next, n⟩
  | answerBatch (u : Uploading) (next : Tally → Conversation α)
      (n number : Nat)
      (batch : Batch) (h : (number, batch) ∈ u.window.flying)
      (hopen : u.refused? = none)
      (reply : Reply (.upsert batch)) :
      Step ⟨.uploading u next, n⟩ [.receive number (.upsert batch) reply]
        ⟨.uploading (u.receive number reply) next, n⟩
  | uploaded (u : Uploading) (next : Tally → Conversation α) (n : Nat)
      (tally : Tally)
      (h : u.tally? = some tally) :
      Step ⟨.uploading u next, n⟩ [] ⟨.ready (next tally), n⟩
  | searchAll (width : Nat) (searches : List SearchRequest)
      (next : List SearchReply → Conversation α) (n : Nat) :
      Step ⟨.ready (.searchAll width searches next), n⟩ []
        ⟨.searching (.ofSearches width n searches) next, n + searches.length⟩
  | sendSearch (s s' : Searching) (next : List SearchReply → Conversation α)
      (n number : Nat)
      (request : SearchRequest) (h : s.start? = some ((number, request), s')) :
      Step ⟨.searching s next, n⟩ [.send number (.search request)]
        ⟨.searching s' next, n⟩
  | answerSearch (s : Searching) (next : List SearchReply → Conversation α)
      (n number : Nat)
      (request : SearchRequest) (h : (number, request) ∈ s.window.flying)
      (reply : Reply (.search request)) :
      Step ⟨.searching s next, n⟩ [.receive number (.search request) reply]
        ⟨.searching (s.receive number reply) next, n⟩
  | searched (s : Searching) (next : List SearchReply → Conversation α)
      (n : Nat)
      (replies : List SearchReply) (h : s.result? = some replies) :
      Step ⟨.searching s next, n⟩ [] ⟨.ready (next replies), n⟩

-- ============================================================= the paths

/-- Steps one after another, with all that is seen of them. -/
inductive Path : Exchange α → List Move → Exchange α → Prop where
  | refl (x : Exchange α) : Path x [] x
  | step {x y z : Exchange α} {moves rest : List Move} (first : Step x moves y)
      (others : Path y rest z) : Path x (moves ++ rest) z

namespace Path

/-- A single step is a path. -/
theorem single {x y : Exchange α} {moves : List Move} (h : Step x moves y) :
    Path x moves y := by
  have := step h (refl y)
  rwa [List.append_nil] at this

/-- Paths can be put together. -/
theorem trans {x y z : Exchange α} {moves rest : List Move}
    (h : Path x moves y) (k : Path y rest z) : Path x (moves ++ rest) z := by
  induction h with
  | refl x => exact k
  | step first others ih =>
      rw [List.append_assoc]
      exact step first (ih k)

end Path

end Exchange

namespace Conversation

variable {α : Type}

/-- The exchange can be reached from the beginning of a conversation by
what is seen. -/
def Reaches (c : Conversation α) (moves : List Move) (x : Exchange α) : Prop :=
  Exchange.Path ⟨.ready c, 0⟩ moves x

/-- A conversation can end with a result after what is seen. -/
def EndsWith (c : Conversation α) (moves : List Move) (result : α) : Prop :=
  ∃ fresh, c.Reaches moves ⟨.ready (.done result), fresh⟩

end Conversation

-- ========================================= one call after the other

/-- The events that are seen. -/
def eventsIn : List Move → List Event
  | [] => []
  | .note event :: rest => event :: eventsIn rest
  | _ :: rest => eventsIn rest

/-- The events of two parts are those of the one and those of the other. -/
theorem eventsIn_append (moves rest : List Move) :
    eventsIn (moves ++ rest) = eventsIn moves ++ eventsIn rest := by
  induction moves with
  | nil => rfl
  | cons move moves ih => cases move <;> simp [eventsIn, ih]

namespace Window

variable {β : Type}

/-- Starting and ending the next job while no other is in flight. -/
theorem finish_of_start (width number : Nat) (job : β)
    (rest : List (Nat × β)) :
    (⟨width, rest, [(number, job)]⟩ : Window β).finish number
      = ⟨width, rest, []⟩ := by
  simp [finish]

/-- The next job can be started while no other is in flight. -/
theorem start?_alone (width number : Nat) (job : β) (rest : List (Nat × β)) :
    (⟨width, (number, job) :: rest, []⟩ : Window β).start?
      = some ((number, job), ⟨width, rest, [(number, job)]⟩) := by
  have : 0 < max 1 width := by omega
  simp [start?, this]

end Window

namespace Responder

open Exchange

variable {α σ : Type} (r : Responder (StateM σ))

/-- An upload goes on to its end when each batch is answered before the
next is sent. -/
theorem upload_path (next : Tally → Conversation α) (n width first : Nat)
    (batches : List Batch) (accepted : Nat) (s : σ) :
    ∃ moves, eventsIn moves = [] ∧
      Path
        ⟨.uploading
          ⟨first, ⟨width, Window.number (first + accepted) batches, []⟩,
          accepted, none⟩ next, n⟩ moves
        ⟨.ready (next ((r.upload accepted batches).run s).1), n⟩ := by
  induction batches generalizing accepted s with
  | nil => exact ⟨[], rfl, .single (.uploaded _ next n ⟨accepted, none⟩ rfl)⟩
  | cons batch rest ih =>
      let u : Uploading :=
        ⟨first,
          ⟨width, Window.number (first + accepted + 1) rest,
          [(first + accepted, batch)]⟩, accepted, none⟩
      have sent : Step ⟨.uploading ⟨first, ⟨width,
          Window.number (first + accepted) (batch :: rest), []⟩, accepted,
            none⟩ next, n⟩
          [.send (first + accepted) (.upsert batch)] ⟨.uploading u next, n⟩ :=
        .sendBatch _ _ _ _ _ _ (by
          simp [Uploading.start?, Window.number, Window.start?_alone, u])
      have answered : ∀ reply : Reply (.upsert batch),
          Step ⟨.uploading u next, n⟩
          [.receive (first + accepted) (.upsert batch) reply]
          ⟨.uploading (u.receive (first + accepted) reply) next, n⟩ :=
        fun reply => .answerBatch _ _ _ _ _ (by simp [u]) rfl reply
      cases hreply : (r (.upsert batch)).run s with
      | mk reply s' =>
          have ha := answered reply
          cases reply with
          | ok answer =>
              cases answer
              obtain ⟨moves, hevents, hpath⟩ := ih (accepted + 1) s'
              refine ⟨[.send _ _] ++ ([.receive _ _ _] ++ moves), ?_,
                .step sent (.step ha ?_)⟩
              · simpa [eventsIn] using hevents
              · have hrun : ((r.upload accepted (batch :: rest)).run s).1
                    = ((r.upload (accepted + 1) rest).run s').1 := by
                  simp only [upload, StateT.run_bind, hreply]
                  rfl
                rw [hrun]
                simpa [u, Uploading.receive, Window.finish_of_start,
                  Nat.add_assoc] using hpath
          | error e =>
              refine ⟨[.send _ _] ++ ([.receive _ _ _] ++ []), rfl,
                .step sent (.step ha (.single ?_))⟩
              have hrun : ((r.upload accepted (batch :: rest)).run s).1
                  = ⟨accepted, some (accepted, e)⟩ := by
                simp only [upload, StateT.run_bind, hreply]
                rfl
              rw [hrun]
              exact .uploaded _ next n
                _ (by simp [u, Uploading.receive, Uploading.tally?])

/-- Searches go on to their end when each is answered before the next is
sent. `done` are the replies to those before. -/
theorem searchAll_path (next : List SearchReply → Conversation α)
    (n width first : Nat) (searches : List SearchRequest)
    (done : List SearchReply) (s : σ) :
    ∃ moves, eventsIn moves = [] ∧
      Path
        ⟨.searching
          ⟨first, ⟨width, Window.number (first + done.length) searches, []⟩,
          done.map some ++ searches.map fun _ => none⟩ next, n⟩ moves
        ⟨.ready (next (done ++ ((r.searchAll searches).run s).1)), n⟩ := by
  induction searches generalizing done s with
  | nil =>
      refine ⟨[], rfl, .single (.searched _ next n _ ?_)⟩
      have key : ∀ replies : List SearchReply,
          (replies.map some).mapM (fun reply => reply) = some replies := by
        intro replies
        induction replies with
        | nil => rfl
        | cons reply replies ih => simp [List.mapM_cons, ih]
      have hrun : ((r.searchAll []).run s).1 = [] := rfl
      simp [Searching.result?, hrun, key]
  | cons request rest ih =>
      let slots : List (Option SearchReply) :=
        done.map some ++ (request :: rest).map fun _ => none
      let w : Searching :=
        ⟨first, ⟨width, Window.number (first + done.length + 1) rest,
          [(first + done.length, request)]⟩, slots⟩
      have sent : Step ⟨.searching ⟨first, ⟨width,
          Window.number (first + done.length) (request :: rest), []⟩, slots⟩
            next, n⟩
          [.send (first + done.length) (.search request)]
            ⟨.searching w next, n⟩ :=
        .sendSearch _ _ _ _ _ _ (by
          simp [Searching.start?, Window.number, Window.start?_alone, w])
      cases hreply : (r (.search request)).run s with
      | mk reply s' =>
          have answered : Step ⟨.searching w next, n⟩
              [.receive (first + done.length) (.search request) reply]
              ⟨.searching (w.receive (first + done.length) reply) next, n⟩ :=
            .answerSearch _ _ _ _ _ (by simp [w]) reply
          obtain ⟨moves, hevents, hpath⟩ := ih (done ++ [reply]) s'
          refine ⟨[.send _ _] ++ ([.receive _ _ _] ++ moves), ?_,
            .step sent (.step answered ?_)⟩
          · simpa [eventsIn] using hevents
          · have hrun : ((r.searchAll (request :: rest)).run s).1
                = reply :: ((r.searchAll rest).run s').1 := by
              simp only [searchAll, StateT.run_bind, hreply]
              rfl
            rw [hrun]
            simpa [w, slots, Searching.receive, Window.finish_of_start,
              Nat.add_assoc]
              using hpath

/-- A conversation that is held one call after the other is held in one
of the ways there are. -/
theorem hold_path (c : Conversation α) (n : Nat) (s : σ) :
    ∃ moves fresh, eventsIn moves = ((c.hold r.channel).run s).1.2 ∧
      Path ⟨.ready c, n⟩ moves
        ⟨.ready (.done ((c.hold r.channel).run s).1.1), fresh⟩ := by
  induction c generalizing n s with
  | done result => exact ⟨[], n, rfl, .refl _⟩
  | note event next ih =>
      obtain ⟨moves, fresh, hevents, hpath⟩ := ih n s
      refine ⟨[.note event] ++ moves, fresh, ?_,
        .step (.note event next n) hpath⟩
      exact congrArg (event :: ·) hevents
  | ask call next ih =>
      obtain ⟨moves, fresh, hevents, hpath⟩ :=
        ih ((r call).run s).1 (n + 1) ((r call).run s).2
      exact ⟨[.send n call] ++ ([.receive n call _] ++ moves), fresh, hevents,
        .step (.ask call next n) (.step (.answer n call next (n + 1) _) hpath)⟩
  | upload width batches next ih =>
      obtain ⟨before, hnone, hupload⟩ :=
        r.upload_path next (n + batches.length) width n batches 0 s
      obtain ⟨moves, fresh, hevents, hpath⟩ :=
        ih ((r.upload 0 batches).run s).1 (n + batches.length)
          ((r.upload 0 batches).run s).2
      refine ⟨[] ++ (before ++ moves), fresh, ?_,
        .step (.upload width batches next n) (hupload.trans hpath)⟩
      rw [List.nil_append, eventsIn_append, hnone, List.nil_append]
      exact hevents
  | searchAll width searches next ih =>
      obtain ⟨before, hnone, hsearch⟩ :=
        r.searchAll_path next (n + searches.length) width n searches [] s
      obtain ⟨moves, fresh, hevents, hpath⟩ :=
        ih ((r.searchAll searches).run s).1 (n + searches.length)
          ((r.searchAll searches).run s).2
      refine ⟨[] ++ (before ++ moves), fresh, ?_,
        .step (.searchAll width searches next n) (hsearch.trans hpath)⟩
      rw [List.nil_append, eventsIn_append, hnone, List.nil_append]
      exact hevents

end Responder

end KnnOracle
