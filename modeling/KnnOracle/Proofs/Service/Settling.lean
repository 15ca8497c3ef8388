/-
What a conversation with a service comes to.

`Meeting.Settles` says that two parties who are left alone come to an end,
whatever they do next, and in what: no turn that they can take leads away
from it, no turn is taken forever, and where none is left the result is as
it should be (`Settles.turns`, `Settles.exists_result`).

`settles_of_ensures` is the way to show it. Jobs in flight reach the
service in any order, so there are many ways to hold a conversation; what
is shown by going through it once holds at the end of each of them.
-/
import KnnOracle.Proofs.Service.Ensuring
import KnnOracle.Proofs.Service.Flight

namespace KnnOracle

open Service

-- =============================================================== settling

namespace Meeting

variable {α : Type}

/-- A step of the two parties themselves. -/
def Turn (o : Options) (m m' : Meeting α) : Prop :=
  ∃ collection, Step o collection m m' ∧ m'.others = m.others

/-- Every way on from here comes to an end, with a result and a service
as they should be. -/
inductive Settles (o : Options) (Q : α → State → Prop) : Meeting α → Prop where
  | done {m : Meeting α} {result : α}
      (hresult : m.exchange.result? = some result)
      (hunderway : m.underway = []) (h : Q result m.service) : Settles o Q m
  | later {m : Meeting α} (can : ∃ m', Turn o m m')
      (must : ∀ m', Turn o m m' → Settles o Q m') :
      Settles o Q m

/-- The conversation is about to go on, and nothing is left over from
before. -/
structure Rests (m : Meeting α) (c : Conversation α) (s : State) : Prop where
  stage : m.exchange.stage = .ready c
  underway : m.underway = []
  service : m.service = s
  posted : ∀ number call (reply : Reply call),
    Move.receive number call reply ∈ m.posted →
    number < m.exchange.fresh

private theorem rests_start (c : Conversation α) (s : State) :
    (start c s).Rests c s where
  stage := rfl
  underway := rfl
  service := rfl
  posted := by
    intro number call reply hmem
    cases hmem

variable {o : Options} {Q : α → State → Prop} {m m' : Meeting α}

-- ================================================================= turns

namespace Turn

/-- The conversation goes on without a word. No other party takes part in this
turn. -/
theorem think {moves : List Move} {y : Exchange α}
    (h : Exchange.Step m.exchange moves y) (hsilent : talkIn moves = []) :
    Turn o m { m with exchange := y } :=
  ⟨"", .think h hsilent, rfl⟩

/-- The conversation sends a call, which is under way from then on. -/
theorem send {number : Nat} {call : Call} {y : Exchange α}
    (h : Exchange.Step m.exchange [.send number call] y) :
    Turn o m
      { m with
        exchange := y
        underway := m.underway ++ [(number, call)]
        seen := m.seen ++ [.send number call] } :=
  ⟨"", .send h, rfl⟩

/-- The service takes any call that is under way and posts its answer. -/
theorem serve {before after : List (Nat × Call)} {number : Nat} {call : Call}
    (h : m.underway = before ++ (number, call) :: after) :
    Turn o m
      { m with
        service := (meet o m.service call).2
        underway := before ++ after
        posted :=
          m.posted ++ [.receive number call (meet o m.service call).1] } :=
  ⟨"", .serve before after h, rfl⟩

/-- The conversation receives an answer that was posted. -/
theorem receive {number : Nat} {call : Call} {reply : Reply call}
    {y : Exchange α}
    (h : Exchange.Step m.exchange [.receive number call reply] y)
    (hposted : Move.receive number call reply ∈ m.posted) :
    Turn o m { m with
      exchange := y, seen := m.seen ++ [.receive number call reply] } :=
  ⟨"", .receive h hposted, rfl⟩

/-- There are no other turns, so what follows from each of the four follows
from any. -/
theorem cases (h : Turn o m m') :
    (∃ moves y, Exchange.Step m.exchange moves y ∧ talkIn moves = [] ∧
      m' = { m with exchange := y }) ∨
    (∃ number call y, Exchange.Step m.exchange [.send number call] y ∧
      m' = { m with
        exchange := y
        underway := m.underway ++ [(number, call)]
        seen := m.seen ++ [.send number call] }) ∨
    (∃ before after number call,
      m.underway = before ++ (number, call) :: after ∧
      m' = { m with
        service := (meet o m.service call).2
        underway := before ++ after
        posted :=
          m.posted ++ [.receive number call (meet o m.service call).1] }) ∨
    ∃ number call reply y, Exchange.Step m.exchange
      [.receive number call reply] y ∧
      Move.receive number call reply ∈ m.posted ∧
      m' = { m with
        exchange := y, seen := m.seen ++ [.receive number call reply] } := by
  obtain ⟨collection, hstep, hothers⟩ := h
  cases hstep with
  | think hx hsilent => exact .inl ⟨_, _, hx, hsilent, rfl⟩
  | send hx => exact .inr (.inl ⟨_, _, _, hx, rfl⟩)
  | serve before after hunderway =>
      exact .inr (.inr (.inl ⟨before, after, _, _, hunderway, rfl⟩))
  | receive hx hposted =>
      exact .inr (.inr (.inr ⟨_, _, _, _, hx, hposted, rfl⟩))
  | other _ => exact absurd hothers (by simp)

end Turn

/-- Where there is a result and nothing is under way, no turn is left. -/
theorem not_turn {result : α} (hresult : m.exchange.result? = some result)
    (hunderway : m.underway = []) : ¬Turn o m m' := by
  have hdone : ∀ {y : Exchange α} {moves : List Move},
      ¬Exchange.Step m.exchange moves y := by
    intro y moves hstep
    generalize m.exchange = x at hstep hresult
    cases hstep <;> cases hresult
  intro hturn
  rcases hturn.cases with ⟨moves, y, hx, -⟩ | ⟨number, call, y, hx, -⟩ |
    ⟨before, after, number, call, hserve, -⟩ | ⟨number, call, reply, y, hx, -⟩
  · exact hdone hx
  · exact hdone hx
  · rw [hunderway] at hserve
    exact absurd hserve.symm (by simp)
  · exact hdone hx

namespace Settles

/-- What is settled stays settled from turn to turn. -/
theorem turns (h : Settles o Q m)
    (hturns : Relation.ReflTransGen (Turn o) m m') :
    Settles o Q m' := by
  induction hturns with
  | refl => exact h
  | tail _ hturn ih =>
      cases ih with
      | done hresult hunderway _ =>
          exact absurd hturn (not_turn hresult hunderway)
      | later _ must => exact must _ hturn

/-- No turn is taken forever. What is settled comes about after finitely many
turns, whoever takes them. -/
theorem acc (h : Settles o Q m) : Acc (fun m' m => Turn o m m') m := by
  induction h with
  | done hresult hunderway _ =>
      exact .intro _ fun m' hturn => absurd hturn (not_turn hresult hunderway)
  | later _ _ ih => exact .intro _ ih

/-- Where no turn is left, what was settled has come: there is a result, and it
is as it should be. -/
theorem exists_result (h : Settles o Q m) (hover : ∀ m', ¬Turn o m m') :
    ∃ result, m.exchange.result? = some result ∧ Q result m.service := by
  cases h with
  | done hresult _ hq => exact ⟨_, hresult, hq⟩
  | later can _ =>
      obtain ⟨m', hturn⟩ := can
      exact absurd hturn (hover m')

end Settles

private theorem Rests.exchange_eq {c : Conversation α} {s : State}
    (h : m.Rests c s) :
    m.exchange = ⟨.ready c, m.exchange.fresh⟩ := by
  rw [← h.stage]

/-- While the conversation is about to go on and no call is under way, only
the conversation takes a turn. -/
theorem Rests.turn {c : Conversation α} {s : State} (h : m.Rests c s)
    (hturn : Turn o m m') :
    (∃ moves y, Exchange.Step ⟨.ready c, m.exchange.fresh⟩ moves y ∧
      talkIn moves = [] ∧
      m' = { m with exchange := y }) ∨
    ∃ number call y, Exchange.Step ⟨.ready c, m.exchange.fresh⟩
      [.send number call] y ∧
      m' = { m with
        exchange := y
        underway := [(number, call)]
        seen := m.seen ++ [.send number call] } := by
  rcases hturn.cases with ⟨moves, y, hx, hsilent, rfl⟩ |
    ⟨number, call, y, hx, rfl⟩ |
    ⟨before, after, number, call, hunderway, -⟩ |
    ⟨number, call, reply, y, hx, -, -⟩
  · rw [h.exchange_eq] at hx
    exact .inl ⟨moves, y, hx, hsilent, rfl⟩
  · rw [h.exchange_eq] at hx
    refine .inr ⟨number, call, y, hx, ?_⟩
    rw [h.underway]
    rfl
  · rw [h.underway] at hunderway
    exact absurd hunderway.symm (by simp)
  · rw [h.exchange_eq] at hx
    cases hx

-- ===================================================== one call after another

private theorem settles_note {event : Event} {next : Conversation α}
    {s : State} (h : m.Rests (.note event next) s)
    (hnext : ∀ m', m'.Rests next s → Settles o Q m') : Settles o Q m := by
  have hstep := Exchange.Step.note event next m.exchange.fresh
  rw [← h.exchange_eq] at hstep
  refine .later ⟨_, .think hstep rfl⟩ fun m' hturn => ?_
  rcases h.turn hturn with ⟨moves, y, hx, -, rfl⟩ | ⟨number, call, y, hx, -⟩
  · cases hx with
    | note _ _ _ => exact hnext _ ⟨rfl, h.underway, h.service, h.posted⟩
  · cases hx

/-- An answer that was posted is received, and no other has its number. -/
theorem settles_answer {number n : Nat} {call : Call} {reply : Reply call}
    {next : Reply call → Conversation α}
    (hexchange : m.exchange = ⟨.asking number call next, n⟩)
    (hunderway : m.underway = [])
    (hposted : Move.receive number call reply ∈ m.posted)
    (hold : ∀ k c (r : Reply c), Move.receive k c r ∈ m.posted → k < n ∧
      (k = number → Move.receive k c r = .receive number call reply))
    (hnext : ∀ m', m'.Rests (next reply) m.service → Settles o Q m') :
    Settles o Q m := by
  have hstep : Exchange.Step m.exchange [.receive number call reply]
      ⟨.ready (next reply), n⟩ := by
    rw [hexchange]
    exact .answer number call next n reply
  refine .later ⟨_, .receive hstep hposted⟩ fun m' hturn => ?_
  rcases hturn.cases with ⟨moves, y, hx, hsilent, -⟩ | ⟨k, c, y, hx, -⟩ |
    ⟨before, after, k, c, hserve, -⟩ | ⟨k, c, r, y, hx, hmem, rfl⟩
  · rw [hexchange] at hx
    cases hx
    cases hsilent
  · rw [hexchange] at hx
    cases hx
  · rw [hunderway] at hserve
    exact absurd hserve.symm (by simp)
  · rw [hexchange] at hx
    cases hx with
    | answer _ _ _ _ r =>
        have heq := (hold _ _ _ hmem).2 rfl
        obtain rfl : r = reply := eq_of_heq (Move.receive.inj heq).2.2
        exact hnext _ ⟨rfl, hunderway, rfl,
          fun k c r hmem => (hold k c r hmem).1⟩

/-- A call that is under way alone reaches the service, and its answer comes
back. There is nothing else that could happen in between. -/
theorem settles_asking {number : Nat} {call : Call}
    {next : Reply call → Conversation α}
    (hexchange : m.exchange = ⟨.asking number call next, number + 1⟩)
    (hunderway : m.underway = [(number, call)])
    (hposted : ∀ k c (r : Reply c), Move.receive k c r ∈ m.posted → k < number)
    (hnext : ∀ m', m'.Rests (next (meet o m.service call).1)
      (meet o m.service call).2 → Settles o Q m') :
    Settles o Q m := by
  have hserve : m.underway = [] ++ (number, call) :: [] := hunderway
  refine .later ⟨_, .serve hserve⟩ fun m' hturn => ?_
  rcases hturn.cases with ⟨moves, y, hx, hsilent, -⟩ | ⟨k, c, y, hx, -⟩ |
    ⟨before, after, k, c, hmem, rfl⟩ | ⟨k, c, r, y, hx, hmem, -⟩
  · rw [hexchange] at hx
    cases hx
    cases hsilent
  · rw [hexchange] at hx
    cases hx
  · rw [hunderway] at hmem
    obtain ⟨rfl, hrest⟩ : before = [] ∧
        [(number, call)] = (k, c) :: after := by
      cases before with
      | nil => exact ⟨rfl, hmem⟩
      | cons _ _ => exact absurd (congrArg List.length hmem) (by simp)
    cases hrest
    refine settles_answer hexchange
      rfl (List.mem_append_right _ (List.mem_singleton_self _))
      (fun k c r hr => ?_) hnext
    rcases List.mem_append.mp hr with hr | hr
    · have hlt := hposted k c r hr
      exact ⟨by omega, fun heq => by omega⟩
    · have heq := List.mem_singleton.mp hr
      have hk : k = number := (Move.receive.inj heq).1
      exact ⟨by omega, fun _ => heq⟩
  · rw [hexchange] at hx
    cases hx with
    | answer _ _ _ _ _ =>
        have hlt := hposted _ _ _ hmem
        omega

/-- A call settles if what follows does, from the answer and the state that the
service makes of the call. -/
private theorem settles_ask {call : Call} {next : Reply call → Conversation α}
    {s : State} (h : m.Rests (.ask call next) s)
    (hnext : ∀ m', m'.Rests (next (meet o s call).1) (meet o s call).2 →
      Settles o Q m') :
    Settles o Q m := by
  have hstep := Exchange.Step.ask call next m.exchange.fresh
  rw [← h.exchange_eq] at hstep
  refine .later ⟨_, .send hstep⟩ fun m' hturn => ?_
  rcases h.turn hturn with ⟨moves, y, hx, hsilent, -⟩ | ⟨number, c, y, hx, rfl⟩
  · cases hx
    cases hsilent
  · cases hx with
    | ask _ _ _ =>
        refine settles_asking rfl rfl h.posted ?_
        rw [h.service]
        exact hnext

-- =============================================================== uploads

/-- The meeting is in the middle of an upload, and all went well so far. -/
structure Uploads (o : Options) (s : State) (first : Nat)
    (batches : List Batch) (next : Tally → Conversation α) (m : Meeting α)
    (u : Uploading) (served flight : List (Nat × Batch)) : Prop where
  exchange : m.exchange = ⟨.uploading u next, first + batches.length⟩
  unrefused : u.refused? = none
  count : u.accepted + u.window.left = batches.length + u.window.waiting.length
  service : m.service = afterBatches o s (served.map Prod.snd)
  course : Window.Course Call.upsert (fun _ => .ok ()) first batches u.window
    served flight
    m.underway m.posted

namespace Uploads

variable {s : State} {first : Nat} {batches : List Batch}
  {next : Tally → Conversation α}
  {u : Uploading} {served flight : List (Nat × Batch)}

/-- Some turn can be taken. -/
theorem can (h : Uploads o s first batches next m u served flight) :
    ∃ m', Turn o m m' := by
  have hexchange := h.exchange
  cases hover : u.window.isOver with
  | true =>
      have hstep :=
        Exchange.Step.uploaded u next (first + batches.length)
          ⟨u.accepted, u.refused?⟩
        (by rw [Uploading.tally?, hover, Bool.or_true, if_pos rfl])
      rw [← hexchange] at hstep
      exact ⟨_, .think hstep rfl⟩
  | false =>
      rcases Window.flying_or_start? hover with ⟨⟨number, batch⟩, hflying⟩ |
        ⟨⟨number, batch⟩, window, hstart⟩
      · rcases h.course.underway_or_posted hflying with
          ⟨before, after, hunderway⟩ | hposted
        · exact ⟨_, .serve hunderway⟩
        · have hstep :=
            Exchange.Step.answerBatch u next (first + batches.length)
              number batch
            hflying h.unrefused (.ok ())
          rw [← hexchange] at hstep
          exact ⟨_, .receive hstep hposted⟩
      · have hstep :=
          Exchange.Step.sendBatch u { u with window }
            next (first + batches.length)
          number batch (by rw [Uploading.start?, h.unrefused, hstart]; rfl)
        rw [← hexchange] at hstep
        exact ⟨_, .send hstep⟩

/-- A turn leads on in the upload, with less left to do, or ends it. -/
theorem turn (h : Uploads o s first batches next m u served flight)
    (haccepts : Accepts o s batches) (hturn : Turn o m m') :
    (∃ u' served' flight', Uploads o s first batches next m' u' served'
      flight' ∧
      u'.window.remaining m'.underway < u.window.remaining m.underway) ∨
    ∃ arrived, arrived.Perm batches ∧
      m'.Rests (next ⟨batches.length, none⟩) (afterBatches o s arrived) := by
  have hcount := h.count
  rcases hturn.cases with ⟨moves, y, hx, hsilent, rfl⟩ |
    ⟨number, call, y, hx, rfl⟩ |
    ⟨before, after, number, call, hunderway, rfl⟩ |
    ⟨number, call, reply, y, hx, hposted, rfl⟩
  · -- the upload is over
    rw [h.exchange] at hx
    cases hx with
    | sendBatch => cases hsilent
    | answerBatch => cases hsilent
    | uploaded _ _ _ tally htally =>
        have hover : u.window.isOver = true := by
          rw [Uploading.tally?, h.unrefused] at htally
          by_contra hnot
          simp [hnot] at htally
        have htally : tally = ⟨batches.length, none⟩ := by
          have hempty : u.window.waiting = [] ∧ u.window.flying = [] := by
            simpa [Window.isOver] using hover
          have haccepted : u.accepted = batches.length := by
            simpa [Window.left, hempty.1, hempty.2] using hcount
          rw [Uploading.tally?, hover, Bool.or_true, if_pos rfl, h.unrefused,
            haccepted] at htally
          exact (Option.some.inj htally).symm
        obtain ⟨hrest, hperm⟩ := h.course.ended hover
        refine .inr
          ⟨_, hperm,
          ⟨?_, hrest, h.service, fun k c r hmem => h.course.lt_of_posted hmem⟩⟩
        rw [htally]
  · -- a batch is sent
    rw [h.exchange] at hx
    cases hx with
    | sendBatch _ u' _ _ _ batch hstart =>
        unfold Uploading.start? at hstart
        rw [h.unrefused] at hstart
        obtain ⟨⟨job, window⟩, hwindow, heq⟩ :=
          Option.map_eq_some_iff.mp hstart
        cases heq
        obtain ⟨hwaiting, hflying, -, -⟩ := Window.start?_eq_some hwindow
        have hleft : u.window.left = window.left + 1 := by
          unfold Window.left
          rw [hwaiting, hflying, List.length_cons, List.length_append,
            List.length_singleton]
          omega
        refine .inl ⟨_, served, _,
          ⟨rfl, rfl, ?_, h.service, h.course.start hwindow⟩,
          Window.remaining_start hwindow _⟩
        show u.accepted + window.left = batches.length + window.waiting.length
        rw [hwaiting, List.length_cons] at hcount
        omega
  · -- a batch reaches the service, which accepts it
    obtain ⟨job, rest, heq, hsub, hcourse⟩ := h.course.serve hunderway
    cases heq
    rw [List.map_append] at hsub
    have haccepted := haccepts (served.map Prod.snd) job.2 hsub
    rw [← h.service] at haccepted
    refine .inl ⟨u, served ++ [job], rest,
      ⟨h.exchange, h.unrefused, h.count, ?_, ?_⟩, ?_⟩
    · show (meet o m.service (.upsert job.2)).2 = _
      unfold afterBatches
      rw [h.service, List.map_append, List.foldl_append]
      rfl
    · rw [haccepted]
      exact hcourse
    · rw [hunderway]
      exact Window.remaining_serve _
  · -- an answer is received
    rw [h.exchange] at hx
    cases hx with
    | answerBatch _ _ _ _ batch hflying _ reply =>
        obtain ⟨hserved, rfl⟩ := h.course.eq_reply hflying hposted
        have hleft := h.course.left_finish hflying
        refine .inl ⟨_, served, flight,
          ⟨rfl, h.unrefused, ?_, h.service, h.course.finish hserved⟩,
            Window.remaining_finish hflying⟩
        show u.accepted + 1 + (u.window.finish number).left
          = batches.length + u.window.waiting.length
        omega

end Uploads

/-- An upload whose batches are accepted in every order ends, and the
batches have arrived in one of them. -/
theorem settles_uploads {s : State} {first : Nat} {batches : List Batch}
    {next : Tally → Conversation α} {u : Uploading}
    {served flight : List (Nat × Batch)}
    (h : Uploads o s first batches next m u served flight)
    (haccepts : Accepts o s batches)
    (hnext : ∀ m' arrived, arrived.Perm batches →
      m'.Rests (next ⟨batches.length, none⟩) (afterBatches o s arrived) →
      Settles o Q m') :
    Settles o Q m := by
  induction hleft : u.window.remaining m.underway using Nat.strongRecOn
    generalizing m u served flight with
  | ind left ih =>
      subst hleft
      refine .later h.can fun m' hturn => ?_
      rcases h.turn haccepts hturn with ⟨u', served', flight', hm', hlt⟩ |
        ⟨arrived, hperm, hrests⟩
      · exact ih _ hlt hm' rfl
      · exact hnext m' arrived hperm hrests

/-- An upload window settles if what follows does from every order in which the
batches may have arrived. -/
private theorem settles_upload {width : Nat} {batches : List Batch}
    {next : Tally → Conversation α} {s : State}
    (h : m.Rests (.upload width batches next) s)
    (haccepts : Accepts o s batches)
    (hnext : ∀ m' arrived, arrived.Perm batches →
      m'.Rests (next ⟨batches.length, none⟩) (afterBatches o s arrived) →
      Settles o Q m') :
    Settles o Q m := by
  have hstep := Exchange.Step.upload width batches next m.exchange.fresh
  rw [← h.exchange_eq] at hstep
  refine .later ⟨_, .think hstep rfl⟩ fun m' hturn => ?_
  rcases h.turn hturn with ⟨moves, y, hx, -, rfl⟩ | ⟨number, call, y, hx, -⟩
  · cases hx with
    | upload _ _ _ _ =>
        have hbegun : Uploads o s m.exchange.fresh batches next
            { m with
              exchange :=
                ⟨.uploading (.ofBatches width m.exchange.fresh batches) next,
              m.exchange.fresh + batches.length⟩ }
            (.ofBatches width m.exchange.fresh batches) [] [] := by
          refine ⟨rfl, rfl, ?_, h.service, ?_⟩
          · have hlength :=
              congrArg List.length
                (Window.map_snd_number m.exchange.fresh batches)
            rw [List.length_map] at hlength
            show 0 + (2 * (Window.number _ batches).length + 0)
              = batches.length + (Window.number _ batches).length
            omega
          · show Window.Course _ _ _ _ _ _ _ m.underway _
            rw [h.underway]
            exact .ofJobs width h.posted
        exact settles_uploads hbegun haccepts hnext
  · cases hx

-- ============================================================== searches

/-- The meeting is in the middle of a round of searches. -/
structure Searches (o : Options) (s : State) (first : Nat)
    (searches : List SearchRequest) (next : List SearchReply → Conversation α)
    (m : Meeting α) (work : Searching)
    (served flight : List (Nat × SearchRequest)) : Prop where
  exchange : m.exchange = ⟨.searching work next, first + searches.length⟩
  first_eq : work.first = first
  service : m.service = s
  length_replies : work.replies.length = searches.length
  replies : ∀ (i : Nat) (reply : SearchReply),
    work.replies[i]? = some (some reply) →
    (answers o s searches)[i]? = some reply
  /-- A job that is left is one whose reply is missing, and the other way
  around. -/
  missing : ∀ job ∈ work.window.waiting ++ work.window.flying,
    work.replies[job.1 - first]? = some none
  complete : work.Complete
  course : Window.Course Call.search (fun r => (meet o s (.search r)).1)
    first searches work.window
    served flight m.underway m.posted

namespace Searches

variable {s : State} {first : Nat} {searches : List SearchRequest}
  {next : List SearchReply → Conversation α} {work : Searching}
  {served flight : List (Nat × SearchRequest)}

/-- Some turn can be taken. -/
theorem can (h : Searches o s first searches next m work served flight) :
    ∃ m', Turn o m m' := by
  have hexchange := h.exchange
  cases hover : work.window.isOver with
  | true =>
      obtain ⟨replies, hreplies⟩ := h.complete.result? hover
      have hstep :=
        Exchange.Step.searched work next (first + searches.length) replies
          hreplies
      rw [← hexchange] at hstep
      exact ⟨_, .think hstep rfl⟩
  | false =>
      rcases Window.flying_or_start? hover with ⟨⟨number, request⟩, hflying⟩ |
        ⟨⟨number, request⟩, window, hstart⟩
      · rcases h.course.underway_or_posted hflying with
          ⟨before, after, hunderway⟩ | hposted
        · exact ⟨_, .serve hunderway⟩
        · have hstep :=
            Exchange.Step.answerSearch work
              next (first + searches.length) number
            request hflying (meet o s (.search request)).1
          rw [← hexchange] at hstep
          exact ⟨_, .receive hstep hposted⟩
      · have hstep := Exchange.Step.sendSearch work { work with window } next
          (first + searches.length) number request
            (by rw [Searching.start?, hstart]; rfl)
        rw [← hexchange] at hstep
        exact ⟨_, .send hstep⟩

/-- When all replies are there, they are what the service answers, in the order
of the searches. -/
theorem eq_answers {replies : List SearchReply}
    (h : Searches o s first searches next m work served flight)
    (hresult : work.result? = some replies) :
    replies = answers o s searches := by
  have hreplies := Searching.result?_eq_some_iff.mp hresult
  have hlength := h.length_replies
  rw [hreplies, List.length_map] at hlength
  refine List.ext_getElem? fun i => ?_
  cases hget : replies[i]? with
  | some reply =>
      refine (h.replies i reply ?_).symm
      rw [hreplies, List.getElem?_map, hget]
      rfl
  | none =>
      have hle := List.getElem?_eq_none_iff.mp hget
      refine (List.getElem?_eq_none_iff.mpr ?_).symm
      rw [answers, List.length_map]
      omega

/-- A reply goes to its place, wherever the others are. -/
theorem replies_receive {number : Nat} {request : SearchRequest}
    (h : Searches o s first searches next m work served flight)
    (hflying : (number, request) ∈ work.window.flying) (i : Nat)
    (reply : SearchReply)
    (hget :
      (work.replies.set (number - work.first)
        (some (meet o s (.search request)).1))[i]? = some (some reply)) :
    (answers o s searches)[i]? = some reply := by
  rw [List.getElem?_set] at hget
  split at hget
  · next heq =>
      split at hget
      · obtain ⟨j, hj, hrequest⟩ := Window.mem_number.mp
          (h.course.split.mem_iff.mp (h.course.mem_of_flying hflying))
        have hij : j = i := by
          have hfirst := h.first_eq
          omega
        rw [answers, List.getElem?_map, ← hij, hrequest]
        exact Option.some.inj hget
      · cases hget
  · exact h.replies i reply hget

/-- The other replies stay missing. -/
theorem missing_receive {number : Nat} {request : SearchRequest}
    {reply : SearchReply}
    (h : Searches o s first searches next m work served flight)
    (hflying : (number, request) ∈ work.window.flying)
    (job : Nat × SearchRequest)
    (hjob : job ∈ (work.window.finish number).waiting
      ++ (work.window.finish number).flying) :
    (work.replies.set (number - work.first) (some reply))[job.1 - first]?
      = some none := by
  have hfirst := h.course.first_le (h.course.mem_of_flying hflying)
  have hother : job ∈ work.window.waiting ++ work.window.flying ∧
      first ≤ job.1 ∧
      job.1 ≠ number := by
    rcases List.mem_append.mp hjob with hwaiting | hflew
    · have hmem := List.mem_append_right (served ++ flight) hwaiting
      exact ⟨List.mem_append_left _ hwaiting, h.course.first_le hmem,
        (h.course.fst_ne_of_waiting hwaiting hflying).symm⟩
    · obtain ⟨hflew, hne⟩ := List.mem_filter.mp hflew
      exact ⟨List.mem_append_right _ hflew,
        h.course.first_le (h.course.mem_of_flying hflew), bne_iff_ne.mp hne⟩
  have hne : number - work.first ≠ job.1 - first := by
    have heq := h.first_eq
    omega
  rw [List.getElem?_set_ne hne]
  exact h.missing job hother.1

/-- A turn leads on in the round, with less left to do, or ends it. -/
theorem turn (h : Searches o s first searches next m work served flight)
    (hturn : Turn o m m') :
    (∃ work' served' flight',
      Searches o s first searches next m' work' served' flight' ∧
      work'.window.remaining m'.underway < work.window.remaining m.underway) ∨
    m'.Rests (next (answers o s searches)) s := by
  rcases hturn.cases with ⟨moves, y, hx, hsilent, rfl⟩ |
    ⟨number, call, y, hx, rfl⟩ |
    ⟨before, after, number, call, hunderway, rfl⟩ |
    ⟨number, call, reply, y, hx, hposted, rfl⟩
  · -- the round is over
    rw [h.exchange] at hx
    cases hx with
    | sendSearch => cases hsilent
    | answerSearch => cases hsilent
    | searched _ _ _ replies hresult =>
        have hover : work.window.isOver = true := by
          have hleft : work.window.waiting ++ work.window.flying = [] := by
            refine List.eq_nil_iff_forall_not_mem.mpr fun job hjob => ?_
            have hmissing := h.missing job hjob
            rw [Searching.result?_eq_some_iff.mp hresult, List.getElem?_map,
              Option.map_eq_some_iff] at hmissing
            obtain ⟨reply, -, hnone⟩ := hmissing
            cases hnone
          obtain ⟨hwaiting, hflying⟩ := List.append_eq_nil_iff.mp hleft
          rw [Window.isOver, hwaiting, hflying]
          rfl
        refine .inr ⟨?_, (h.course.ended hover).1, h.service,
          fun k c r hmem => h.course.lt_of_posted hmem⟩
        rw [h.eq_answers hresult]
  · -- a search is sent
    rw [h.exchange] at hx
    cases hx with
    | sendSearch _ work' _ _ _ request hstart =>
        have hcomplete := h.complete.start hstart
        obtain ⟨⟨job, window⟩, hwindow, heq⟩ :=
          Option.map_eq_some_iff.mp hstart
        cases heq
        obtain ⟨hwaiting, hnext, -, -⟩ := Window.start?_eq_some hwindow
        refine .inl ⟨_, served, _,
          ⟨rfl, h.first_eq, h.service, h.length_replies, h.replies,
          fun other hother => h.missing other ?_, hcomplete,
            h.course.start hwindow⟩,
          Window.remaining_start hwindow _⟩
        -- the job changes places with those in flight
        have hother : other ∈ window.waiting ++ window.flying := hother
        rw [hnext] at hother
        rw [hwaiting]
        simp only [List.mem_append, List.mem_cons, List.not_mem_nil, or_false]
          at hother ⊢
        rcases hother with hother | hother | hother
        · exact .inl (.inr hother)
        · exact .inr hother
        · exact .inl (.inl hother)
  · -- a search reaches the service, which is not changed
    obtain ⟨job, rest, heq, -, hcourse⟩ := h.course.serve hunderway
    cases heq
    have hsame : (meet o m.service (.search job.2)).2 = s := by
      rw [meet_snd, step_of_writes?_eq_none o m.service rfl, h.service]
    refine .inl ⟨work, served ++ [job], rest,
      ⟨h.exchange, h.first_eq, hsame, h.length_replies, h.replies, h.missing,
      h.complete, ?_⟩, ?_⟩
    · rw [h.service]
      exact hcourse
    · rw [hunderway]
      exact Window.remaining_serve _
  · -- an answer is received
    rw [h.exchange] at hx
    cases hx with
    | answerSearch _ _ _ _ request hflying reply =>
        obtain ⟨hserved, rfl⟩ := h.course.eq_reply hflying hposted
        refine .inl ⟨_, served, flight,
          ⟨rfl, h.first_eq, h.service, ?_, ?_, ?_,
          h.complete.receive number _, h.course.finish hserved⟩,
            Window.remaining_finish hflying⟩
        · show (work.replies.set _ _).length = _
          rw [List.length_set]
          exact h.length_replies
        · exact h.replies_receive hflying
        · exact h.missing_receive hflying

end Searches

/-- A search window settles, at any moment of it, if what follows does from
the list of the answers. Searches change nothing, so their order does not
matter. -/
private theorem settles_searches {s : State} {first : Nat}
    {searches : List SearchRequest} {next : List SearchReply → Conversation α}
    {work : Searching} {served flight : List (Nat × SearchRequest)}
    (h : Searches o s first searches next m work served flight)
    (hnext : ∀ m', m'.Rests (next (answers o s searches)) s → Settles o Q m') :
    Settles o Q m := by
  induction hleft : work.window.remaining m.underway using Nat.strongRecOn
    generalizing m work served flight with
  | ind left ih =>
      subst hleft
      refine .later h.can fun m' hturn => ?_
      rcases h.turn hturn with ⟨work', served', flight', hm', hlt⟩ | hrests
      · exact ih _ hlt hm' rfl
      · exact hnext m' hrests

/-- A search window settles if what follows does from the list of the
answers. -/
private theorem settles_searchAll {width : Nat} {searches : List SearchRequest}
    {next : List SearchReply → Conversation α} {s : State}
    (h : m.Rests (.searchAll width searches next) s)
    (hnext : ∀ m', m'.Rests (next (answers o s searches)) s → Settles o Q m') :
    Settles o Q m := by
  have hstep := Exchange.Step.searchAll width searches next m.exchange.fresh
  rw [← h.exchange_eq] at hstep
  refine .later ⟨_, .think hstep rfl⟩ fun m' hturn => ?_
  rcases h.turn hturn with ⟨moves, y, hx, -, rfl⟩ | ⟨number, call, y, hx, -⟩
  · cases hx with
    | searchAll _ _ _ _ =>
        have hbegun : Searches o s m.exchange.fresh searches next
            { m with
              exchange :=
                ⟨.searching (.ofSearches width m.exchange.fresh searches) next,
              m.exchange.fresh + searches.length⟩ }
            (.ofSearches width m.exchange.fresh searches) [] [] := by
          refine ⟨rfl, rfl, h.service, List.length_map .., ?_, ?_,
            Searching.complete_ofSearches _ _ _, ?_⟩
          · intro i reply hget
            have hget : (searches.map fun _ => none)[i]? = some (some reply) :=
              hget
            rw [List.getElem?_map, Option.map_eq_some_iff] at hget
            obtain ⟨request, -, hnone⟩ := hget
            cases hnone
          · rintro ⟨number, request⟩ hjob
            rcases List.mem_append.mp hjob with hjob | hjob
            · obtain ⟨i, hi, hrequest⟩ := Window.mem_number.mp hjob
              have hplace : number - m.exchange.fresh = i := by omega
              show (searches.map fun _ => none)[number - m.exchange.fresh]?
                = some none
              rw [hplace, List.getElem?_map, hrequest]
              rfl
            · cases hjob
          · show Window.Course _ _ _ _ _ _ _ m.underway _
            rw [h.underway]
            exact .ofJobs width h.posted
        exact settles_searches hbegun hnext
  · cases hx

-- ================================================================ the bridge

/-- What is ensured by going through a conversation holds at the end of every
way to hold it. The induction is on the conversation, from one resting point to
the next. -/
theorem settles_of_rests {c : Conversation α} {s : State}
    (hensures : c.Ensures o s Q) (h : m.Rests c s) : Settles o Q m := by
  induction c generalizing m s with
  | done result =>
      have hresult : m.exchange.result? = some result := by
        rw [h.exchange_eq]
        rfl
      refine .done hresult h.underway ?_
      rw [h.service]
      exact hensures
  | note event next ih => exact settles_note h fun m' => ih hensures
  | ask call next ih => exact settles_ask h fun m' => ih _ hensures
  | upload width batches next ih =>
      exact settles_upload h hensures.1 fun m' arrived hperm =>
        ih _ (hensures.2 arrived hperm)
  | searchAll width searches next ih =>
      exact settles_searchAll h fun m' => ih _ hensures

end Meeting

/-- A conversation with a service in a state settles. -/
def Conversation.Settles {α : Type} (o : Options) (c : Conversation α)
    (s : State) (Q : α → State → Prop) : Prop :=
  (Meeting.start c s).Settles o Q

/-- What a conversation ensures call by call, it also settles with a service
that takes calls in any order. Specifications are shown in the first form and
used in the second. -/
theorem Conversation.settles_of_ensures {α : Type} {o : Options}
    {c : Conversation α} {s : State} {Q : α → State → Prop}
    (h : c.Ensures o s Q) : c.Settles o s Q :=
  Meeting.settles_of_rests h (Meeting.rests_start c s)

end KnnOracle
