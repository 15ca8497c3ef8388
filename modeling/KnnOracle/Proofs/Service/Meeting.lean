/-
A conversation held with a service.

A `Meeting` is a conversation under way and a service, with what is
between them: calls on their way to the service, and the answers that it
has given. The client may send whenever its exchange allows that, calls
reach the service in any order, at any later moment or never, and an
answer may be received at any moment after it was given. A call whose
answer nobody waits for any more still reaches the service, or does not.
Others use the service too, as long as they leave one collection alone.

# What a meeting keeps

`Sound` says how the parts hang together: what the client has seen is a
path of its conversation, what was sent is on its way or answered, and
what was received was answered. It is kept by every step
(`Sound.step`), so it holds whenever two parties meet (`Meets.sound`).
-/
import Mathlib.Logic.Relation
import KnnOracle.Proofs.Exchange.Paths
import KnnOracle.Proofs.Service.Effects

namespace KnnOracle

open Service

-- ============================================================ the answers

/-- What a service answers to a client, and what it remembers then. -/
def Service.meet (o : Options) (s : State) (call : Call) :
    Reply call × State :=
  (responder o call).run s

/-- The call that was answered, if one was. -/
def Move.answered? : Move → Option (Nat × Call)
  | .receive number call _ => some (number, call)
  | _ => none

/-- The calls that were answered, in order of the answers. -/
def answeredIn (moves : List Move) : List (Nat × Call) :=
  moves.filterMap Move.answered?

/-- A client is told the status and the text of a refusal, together with what
it had asked for. -/
private theorem Service.meet_eq (o : Options) (s : State) (call : Call) :
    meet o s call = (match step o s call with
      | (.ok answer, s) => (.ok answer, s)
      | (.error e, s) => (.error (.rejected call.action e.status e.text), s) :
        Reply call × State) := rfl

/-- A client is told what the service decides. -/
theorem Service.meet_of_ok {o : Options} {s s' : State} {call : Call}
    {answer : call.Answer} (h : step o s call = (.ok answer, s')) :
    meet o s call = (.ok answer, s') := by
  rw [meet_eq, h]

theorem Service.meet_of_error {o : Options} {s s' : State} {call : Call}
    {e : Refusal} (h : step o s call = (.error e, s')) :
    meet o s call = (.error (.rejected call.action e.status e.text), s') := by
  rw [meet_eq, h]

/-- What the service remembers does not depend on what the client is told. So
facts about its steps are facts about meetings. -/
theorem Service.meet_snd (o : Options) (s : State) (call : Call) :
    (meet o s call).2 = (step o s call).2 := by
  cases h : step o s call with
  | mk result s' =>
      cases result with
      | ok answer => rw [meet_of_ok h]
      | error e => rw [meet_of_error h]

private theorem answeredIn_append (moves rest : List Move) :
    answeredIn (moves ++ rest) = answeredIn moves ++ answeredIn rest :=
      List.filterMap_append

theorem mem_answeredIn_of_mem {moves : List Move} {number : Nat} {call : Call}
    {reply : Reply call} (h : Move.receive number call reply ∈ moves) :
    (number, call) ∈ answeredIn moves :=
  List.mem_filterMap.mpr ⟨_, h, rfl⟩

/-- Where numbers differ, no call was answered twice, so two answers to one
number are one answer. -/
theorem receive_inj {moves : List Move}
    (hnodup : ((answeredIn moves).map Prod.fst).Nodup) {number : Nat}
    {call call' : Call} {reply : Reply call} {reply' : Reply call'}
    (h : Move.receive number call reply ∈ moves)
    (h' : Move.receive number call' reply' ∈ moves) :
    Move.receive number call reply = Move.receive number call' reply' := by
  induction moves with
  | nil => cases h
  | cons move rest ih =>
      have hrest : ((answeredIn rest).map Prod.fst).Nodup := by
        cases move with
        | receive number call reply => exact (List.nodup_cons.mp hnodup).2
        | note event => exact hnodup
        | send number call => exact hnodup
      -- the first move is the only one with its number
      have hfirst : ∀ {call : Call} {reply : Reply call} {call' : Call}
          {reply' : Reply call'},
          move = .receive number call reply →
            Move.receive number call' reply' ∉ rest := by
        rintro call reply call' reply' rfl hmem
        exact (List.nodup_cons.mp hnodup).1
          (List.mem_map.mpr ⟨_, mem_answeredIn_of_mem hmem, rfl⟩)
      rcases List.mem_cons.mp h with heq | hmem
      · rcases List.mem_cons.mp h' with heq' | hmem'
        · exact heq.trans heq'.symm
        · exact absurd hmem' (hfirst heq.symm)
      · rcases List.mem_cons.mp h' with heq' | hmem'
        · exact absurd hmem (hfirst heq'.symm)
        · exact ih hrest hmem hmem'

-- =========================================================== the meetings

/-- A conversation under way with a service. -/
structure Meeting (α : Type) where
  exchange : Exchange α
  service : State
  /-- The calls that have not reached the service. -/
  underway : List (Nat × Call)
  /-- The answers that the service has given. -/
  posted : List Move
  /-- What the client has sent and received. -/
  seen : List Move
  /-- The calls that others have made. -/
  others : List Call

namespace Meeting

variable {α : Type}

/-- A conversation that is about to begin. -/
def start (c : Conversation α) (s : State) : Meeting α :=
  ⟨⟨.ready c, 0⟩, s, [], [], [], []⟩

/-- What may happen next, while others leave a collection alone. -/
inductive Step (o : Options) (collection : String) :
    Meeting α → Meeting α → Prop where
  /-- The client goes on by itself. -/
  | think {m : Meeting α} {moves : List Move} {y : Exchange α}
      (h : Exchange.Step m.exchange moves y) (hsilent : talkIn moves = []) :
      Step o collection m { m with exchange := y }
  | send {m : Meeting α} {number : Nat} {call : Call} {y : Exchange α}
      (h : Exchange.Step m.exchange [.send number call] y) :
      Step o collection m
        { m with
          exchange := y
          underway := m.underway ++ [(number, call)]
          seen := m.seen ++ [.send number call] }
  /-- A call reaches the service, which answers it. -/
  | serve {m : Meeting α} (before after : List (Nat × Call)) {number : Nat}
      {call : Call}
      (h : m.underway = before ++ (number, call) :: after) :
      Step o collection m
        { m with
          service := (meet o m.service call).2
          underway := before ++ after
          posted :=
            m.posted ++ [.receive number call (meet o m.service call).1] }
  | receive {m : Meeting α} {number : Nat} {call : Call} {reply : Reply call}
      {y : Exchange α}
      (h : Exchange.Step m.exchange [.receive number call reply] y)
      (hposted : Move.receive number call reply ∈ m.posted) :
      Step o collection m
        { m with
          exchange := y
          seen := m.seen ++ [.receive number call reply] }
  /-- Someone else makes a call. -/
  | other {m : Meeting α} {call : Call} (h : call.writes? ≠ some collection) :
      Step o collection m
        { m with
          service := (meet o m.service call).2
          others := m.others ++ [call] }

/-- How the parts of a meeting hang together. -/
structure Sound (c : Conversation α) (m : Meeting α) : Prop where
  /-- What was seen is a path of the conversation. -/
  path : ∃ moves, c.Reaches moves m.exchange ∧ talkIn moves = m.seen
  /-- What was sent is on its way, or was answered. -/
  sent : (m.underway ++ answeredIn m.posted).Perm (callsIn m.seen)
  /-- What was received was answered. -/
  received : ∀ number call (reply : Reply call),
    Move.receive number call reply ∈ m.seen →
      Move.receive number call reply ∈ m.posted

variable {o : Options} {collection : String} {c : Conversation α} {s : State}
  {m m' : Meeting α}

private theorem sound_start (c : Conversation α) (s : State) :
    (start c s).Sound c where
  path := ⟨[], .refl _, rfl⟩
  sent := List.Perm.refl _
  received := by
    intro number call reply h
    cases h

/-- Each step keeps a meeting sound. This is the one place where the steps
are looked at one by one; what later files say of meetings, they say of sound
ones. -/
theorem Sound.step (h : m.Sound c) (hstep : Step o collection m m') :
    m'.Sound c := by
  obtain ⟨moves, hpath, htalk⟩ := h.path
  cases hstep with
  | think hx hsilent =>
      refine ⟨⟨_, hpath.trans (.single hx), ?_⟩, h.sent, h.received⟩
      rw [talkIn_append, hsilent, List.append_nil, htalk]
  | @send number call y hx =>
      refine ⟨⟨_, hpath.trans (.single hx), ?_⟩, ?_, ?_⟩
      · rw [talkIn_append, htalk]
        rfl
      · show ((m.underway ++ [(number, call)]) ++ answeredIn m.posted).Perm
          (callsIn (m.seen ++ [.send number call]))
        rw [callsIn_append, List.append_assoc]
        -- the call moves from the middle to the end
        refine (List.Perm.append_left _ List.perm_append_comm).trans ?_
        rw [← List.append_assoc]
        exact h.sent.append_right _
      · intro number call reply hmem
        rcases List.mem_append.mp hmem with hmem | hmem
        · exact h.received _ _ _ hmem
        · cases List.mem_singleton.mp hmem
  | @serve before after number call hunderway =>
      refine ⟨⟨moves, hpath, htalk⟩, ?_, ?_⟩
      · show ((before ++ after)
          ++ answeredIn (m.posted ++ [.receive number call _])).Perm _
        have hsent := h.sent
        rw [hunderway] at hsent
        rw [answeredIn_append]
        refine List.Perm.trans ?_ hsent
        show ((before ++ after)
          ++ (answeredIn m.posted ++ [(number, call)])).Perm _
        -- the call moves from the end to its place among those under way
        rw [← List.append_assoc]
        refine List.perm_append_comm.trans ?_
        rw [List.append_assoc, List.append_assoc, List.singleton_append,
          List.cons_append]
        exact List.perm_middle.symm
      · intro number' call' reply hmem
        exact List.mem_append_left _ (h.received _ _ _ hmem)
  | @receive number call reply y hx hposted =>
      refine ⟨⟨_, hpath.trans (.single hx), ?_⟩, ?_, ?_⟩
      · rw [talkIn_append, htalk]
        rfl
      · show (m.underway ++ answeredIn m.posted).Perm
          (callsIn (m.seen ++ [.receive number call reply]))
        rw [callsIn_append]
        show List.Perm _ (callsIn m.seen ++ [])
        rw [List.append_nil]
        exact h.sent
      · intro number' call' reply' hmem
        rcases List.mem_append.mp hmem with hmem | hmem
        · exact h.received _ _ _ hmem
        · rw [List.mem_singleton.mp hmem]
          exact hposted
  | other _ => exact ⟨⟨moves, hpath, htalk⟩, h.sent, h.received⟩

/-- A result stays once it is there, although calls may still reach the
service. -/
theorem result?_of_steps {result : α}
    (h : Relation.ReflTransGen (Step o collection) m m')
    (hresult : m.exchange.result? = some result) :
    m'.exchange.result? = some result := by
  -- a conversation that is done takes no step
  have hdone : ∀ {x y : Exchange α} {moves : List Move},
      x.result? = some result →
      ¬Exchange.Step x moves y := by
    intro x y moves hx hstep
    cases hstep <;> cases hx
  induction h with
  | refl => exact hresult
  | tail _ hstep ih =>
      cases hstep with
      | think hx _ => exact absurd hx (hdone ih)
      | send hx => exact absurd hx (hdone ih)
      | serve _ _ _ => exact ih
      | receive hx _ => exact absurd hx (hdone ih)
      | other _ => exact ih

end Meeting

/-- A conversation with a service in a state can come to a meeting, while
others leave a collection alone. -/
def Meets {α : Type} (o : Options) (collection : String) (c : Conversation α)
    (s : State) (m : Meeting α) : Prop :=
  Relation.ReflTransGen (Meeting.Step o collection) (Meeting.start c s) m

/-- Whenever a client and a service meet, their meeting is sound. -/
theorem Meets.sound {α : Type} {o : Options} {collection : String}
    {c : Conversation α} {s : State} {m : Meeting α}
    (h : Meets o collection c s m) : m.Sound c := by
  induction h with
  | refl => exact Meeting.sound_start c s
  | tail _ hstep ih => exact ih.step hstep

end KnnOracle
