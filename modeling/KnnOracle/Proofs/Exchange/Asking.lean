/-
Calls one after another.

An `Inquiry` is a call with a judgement on its reply. `askAll` makes
inquiries in their order, each after the reply to the one before was accepted,
and stops at the first reply that is not. `Asked` says what can have been said
by any moment, and what the result is if there is one.

# Reading it

Whatever is sent is the call of an inquiry, and all inquiries before that one
were accepted (`Asked.before_send`). Whatever is received is the reply to such
a call, and is the end of it all if it is not accepted
(`Asked.before_receive`).
-/
import KnnOracle.Proofs.Exchange.Chaining

namespace KnnOracle

/-- A call, and what is made of the reply. -/
structure Inquiry (ε : Type) where
  call : Call
  judge : Reply call → Except ε Unit

variable {ε : Type}

/-- Makes inquiries in order, up to the first whose reply is not accepted. -/
def Conversation.askAll : List (Inquiry ε) → Conversation (Except ε Unit)
  | [] => .done (.ok ())
  | q :: rest =>
      .ask q.call fun reply =>
        match q.judge reply with
        | .error e => .done (.error e)
        | .ok () => askAll rest

/-- What can have been said of inquiries whose calls have the numbers from `n`
on, and what was returned by then. -/
inductive Asked :
    Nat → List (Inquiry ε) → List Move → Option (Except ε Unit) → Prop where
  | finished (n : Nat) : Asked n [] [] (some (.ok ()))
  | due (n : Nat) (q : Inquiry ε) (rest : List (Inquiry ε)) :
      Asked n (q :: rest) [] none
  | sent (n : Nat) (q : Inquiry ε) (rest : List (Inquiry ε)) :
      Asked n (q :: rest) [.send n q.call] none
  | refused (n : Nat) (q : Inquiry ε) (rest : List (Inquiry ε))
      (reply : Reply q.call) (e : ε)
      (h : q.judge reply = .error e) :
      Asked n (q :: rest) [.send n q.call, .receive n q.call reply]
        (some (.error e))
  | accepted {n : Nat} {rest : List (Inquiry ε)} {tail : List Move}
      {result : Option (Except ε Unit)} (q : Inquiry ε) (reply : Reply q.call)
      (h : q.judge reply = .ok ()) (others : Asked (n + 1) rest tail result) :
      Asked n (q :: rest) (.send n q.call :: .receive n q.call reply :: tail)
        result

/-- All inquiries were made, and all replies were accepted. -/
abbrev Accepted (n : Nat) (inquiries : List (Inquiry ε)) (moves : List Move) :
    Prop :=
  Asked n inquiries moves (some (.ok ()))

namespace Exchange

/-- Every path of inquiries is one of the forms; at its end as many numbers
were given as there are inquiries. -/
theorem path_askAll {inquiries : List (Inquiry ε)} {n : Nat}
    {moves : List Move} {x : Exchange (Except ε Unit)}
    (h : Path ⟨.ready (.askAll inquiries), n⟩ moves x) :
    Asked n inquiries (talkIn moves) x.result? ∧
    (x.result? = some (.ok ()) → x.fresh = n + inquiries.length) := by
  induction inquiries generalizing n moves with
  | nil =>
      obtain ⟨rfl, rfl⟩ := eq_of_path_done h
      exact ⟨.finished n, fun _ => rfl⟩
  | cons q rest ih =>
      rcases path_ask h with ⟨htalk, hresult⟩ | ⟨htalk, hresult⟩ |
        ⟨reply, others, htalk, h⟩
      · rw [htalk, hresult]
        exact ⟨.due n q rest, nofun⟩
      · rw [htalk, hresult]
        exact ⟨.sent n q rest, nofun⟩
      · rw [htalk]
        cases hjudge : q.judge reply with
        | error e =>
            rw [hjudge] at h
            obtain ⟨rfl, rfl⟩ := eq_of_path_done h
            exact ⟨.refused n q rest reply e hjudge, nofun⟩
        | ok done =>
            rw [hjudge] at h
            obtain ⟨hrest, hfresh⟩ := ih h
            refine ⟨.accepted q reply hjudge hrest, fun hresult => ?_⟩
            rw [hfresh hresult, List.length_cons]
            omega

end Exchange

namespace Asked

variable {inquiries : List (Inquiry ε)} {n : Nat} {moves : List Move}
  {result : Option (Except ε Unit)}

/-- Whatever is said belongs to one of the inquiries: it is the call that the
inquiry makes, or the reply to it. -/
theorem forms (h : Asked n inquiries moves result) {move : Move}
    (hmem : move ∈ moves) :
    ∃ i q, inquiries[i]? = some q ∧
      (move = .send (n + i) q.call ∨
        ∃ reply, move = .receive (n + i) q.call reply) := by
  induction h with
  | finished n => cases hmem
  | due n q rest => cases hmem
  | sent n q rest => exact ⟨0, q, rfl, Or.inl (List.mem_singleton.mp hmem)⟩
  | refused n q rest reply e h =>
      rcases List.mem_cons.mp hmem with heq | hmem
      · exact ⟨0, q, rfl, Or.inl heq⟩
      · exact ⟨0, q, rfl, Or.inr ⟨reply, List.mem_singleton.mp hmem⟩⟩
  | @accepted n rest tail result q reply h others ih =>
      rcases List.mem_cons.mp hmem with heq | hmem
      · exact ⟨0, q, rfl, Or.inl heq⟩
      rcases List.mem_cons.mp hmem with heq | hmem
      · exact ⟨0, q, rfl, Or.inr ⟨reply, heq⟩⟩
      · obtain ⟨i, q', hq', hform⟩ := ih hmem
        rw [Nat.add_right_comm, Nat.add_assoc] at hform
        exact ⟨i + 1, q', hq', hform⟩

/-- A call is sent when all inquiries before were accepted. So what a call says
about the past is that everything had passed until then. -/
theorem before_send (h : Asked n inquiries moves result)
    {before after : List Move} {number : Nat} {call : Call}
    (hsplit : moves = before ++ .send number call :: after) :
    ∃ i q, inquiries[i]? = some q ∧ number = n + i ∧ call = q.call ∧
      Accepted n (inquiries.take i) before := by
  induction h generalizing before with
  | finished n => exact absurd hsplit (by simp)
  | due n q rest => exact absurd hsplit (by simp)
  | sent n q rest =>
      obtain ⟨rfl, heq, -⟩ : before = [] ∧ _ := by
        cases before with
        | nil => exact ⟨rfl, List.cons.inj hsplit⟩
        | cons head before => exact absurd (List.cons.inj hsplit).2 (by simp)
      cases heq
      exact ⟨0, q, rfl, rfl, rfl, .finished _⟩
  | refused n q rest reply e h =>
      cases before with
      | nil =>
          cases (List.cons.inj hsplit).1
          exact ⟨0, q, rfl, rfl, rfl, .finished _⟩
      | cons head before =>
          have hrest := (List.cons.inj hsplit).2
          have hmem : Move.send number call ∈ [Move.receive n q.call reply] :=
            hrest ▸ List.mem_append_right _ List.mem_cons_self
          cases List.mem_singleton.mp hmem
  | @accepted n rest tail result q reply h others ih =>
      match before with
      | [] =>
          cases (List.cons.inj hsplit).1
          exact ⟨0, q, rfl, rfl, rfl, .finished _⟩
      | [_] => cases (List.cons.inj (List.cons.inj hsplit).2).1
      | first :: second :: before =>
          obtain ⟨rfl, hrest⟩ := List.cons.inj hsplit
          obtain ⟨rfl, htail⟩ := List.cons.inj hrest
          obtain ⟨i, q', hq', hnumber, hcall, hbefore⟩ := ih htail
          exact ⟨i + 1, q', hq', by omega, hcall, .accepted q reply h hbefore⟩

/-- A reply is to a call that was sent when all inquiries before were accepted;
one that is not accepted is the last. -/
theorem before_receive (h : Asked n inquiries moves result)
    {before after : List Move} {number : Nat} {call : Call}
    {reply : Reply call}
    (hsplit : moves = before ++ .receive number call reply :: after) :
    ∃ i q reply' earlier, inquiries[i]? = some q ∧
      Move.receive number call reply = .receive (n + i) q.call reply' ∧
      before = earlier ++ [.send (n + i) q.call] ∧
      Accepted n (inquiries.take i) earlier ∧
      ∀ e, q.judge reply' = .error e → after = [] ∧
        result = some (.error e) := by
  induction h generalizing before with
  | finished n => exact absurd hsplit (by simp)
  | due n q rest => exact absurd hsplit (by simp)
  | sent n q rest =>
      have hmem : Move.receive number call reply ∈ [Move.send n q.call] :=
        hsplit ▸ List.mem_append_right _ List.mem_cons_self
      cases List.mem_singleton.mp hmem
  | refused n q rest reply' e h =>
      match before with
      | [] => cases (List.cons.inj hsplit).1
      | [_] =>
          obtain ⟨rfl, hrest⟩ := List.cons.inj hsplit
          obtain ⟨heq, rfl⟩ := List.cons.inj hrest
          refine ⟨0, q, reply', [], rfl, heq.symm, rfl, .finished n,
            fun e' he' => ⟨rfl, ?_⟩⟩
          rw [h] at he'
          cases he'
          rfl
      | first :: second :: before =>
          exact absurd (List.cons.inj (List.cons.inj hsplit).2).2 (by simp)
  | @accepted n rest tail result q reply' h others ih =>
      match before with
      | [] => cases (List.cons.inj hsplit).1
      | [_] =>
          obtain ⟨rfl, hrest⟩ := List.cons.inj hsplit
          refine ⟨0, q, reply', [], rfl, (List.cons.inj hrest).1.symm, rfl,
            .finished n, fun e he => ?_⟩
          rw [h] at he
          cases he
      | first :: second :: before =>
          obtain ⟨rfl, hrest⟩ := List.cons.inj hsplit
          obtain ⟨rfl, htail⟩ := List.cons.inj hrest
          obtain ⟨i, q', reply'', earlier, hq', hmove, rfl, hearlier, hend⟩ :=
            ih htail
          rw [Nat.add_right_comm, Nat.add_assoc] at hmove ⊢
          exact ⟨i + 1, q', reply'', _, hq', hmove, rfl,
            .accepted q reply' h hearlier, hend⟩

/-- What goes wrong is a reply that is not accepted, and the failure is what
the inquiry makes of it. -/
theorem exists_refused {e : ε}
    (h : Asked n inquiries moves (some (.error e))) :
    ∃ i q reply, inquiries[i]? = some q ∧
      Move.receive (n + i) q.call reply ∈ moves ∧
      q.judge reply = .error e := by
  generalize hresult : some (Except.error e) = result at h
  induction h with
  | finished n => cases hresult
  | due n q rest => cases hresult
  | sent n q rest => cases hresult
  | refused n q rest reply e' h =>
      cases hresult
      exact ⟨0, q, reply, rfl, List.mem_cons_of_mem _ List.mem_cons_self, h⟩
  | @accepted n rest tail result q reply h others ih =>
      obtain ⟨i, q', reply', hq', hmem, hjudge⟩ := ih hresult
      rw [Nat.add_right_comm, Nat.add_assoc] at hmem
      exact ⟨i + 1, q', reply', hq',
        List.mem_cons_of_mem _ (List.mem_cons_of_mem _ hmem), hjudge⟩

end Asked

namespace Accepted

variable {inquiries : List (Inquiry ε)} {n : Nat} {moves : List Move}

/-- Each inquiry has a reply that was accepted, so that success says something
about every one of them. -/
theorem answered (h : Accepted n inquiries moves) {i : Nat} {q : Inquiry ε}
    (hq : inquiries[i]? = some q) :
    ∃ reply, Move.receive (n + i) q.call reply ∈ moves ∧
      q.judge reply = .ok () := by
  induction inquiries generalizing n moves i with
  | nil => cases hq
  | cons first rest ih =>
      cases h with
      | accepted _ reply hjudge others =>
          cases i with
          | zero =>
              cases hq
              exact ⟨reply, List.mem_cons_of_mem _ List.mem_cons_self, hjudge⟩
          | succ i =>
              obtain ⟨reply', hmem, hjudge'⟩ := ih others hq
              rw [Nat.add_right_comm, Nat.add_assoc] at hmem
              exact ⟨reply', List.mem_cons_of_mem
                _ (List.mem_cons_of_mem _ hmem), hjudge'⟩

/-- The calls were made in order, and all of them were made. -/
theorem callsIn_eq (h : Accepted n inquiries moves) :
    callsIn moves = Window.number n (inquiries.map Inquiry.call) := by
  induction inquiries generalizing n moves with
  | nil =>
      cases h with
      | finished _ => rfl
  | cons first rest ih =>
      cases h with
      | accepted _ reply hjudge others =>
          have hrest := ih others
          exact congrArg ((n, first.call) :: ·) hrest

theorem eq_nil (h : Accepted n ([] : List (Inquiry ε)) moves) :
    moves = [] := by
  cases h with
  | finished _ => rfl

end Accepted

end KnnOracle
