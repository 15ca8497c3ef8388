/-
Conversations one after another.

A conversation that goes on with the result of another is on a path of that
other one until it has a result, and on a path of what comes after it from
then on (`path_bind`). Where the first conversation can fail, a failure is
the end of both (`path_andThen`).

The single steps agree because going on with a result changes no stage but
the last one (`step_bind`). So a path is cut where the first conversation has
its result, by induction on the path.
-/
import KnnOracle.Proofs.Exchange.Paths

namespace KnnOracle

namespace Conversation

variable {α β γ ε : Type}

private theorem bind_assoc (c : Conversation α) (f : α → Conversation β)
    (g : β → Conversation γ) :
    (c.bind f).bind g = c.bind fun a => (f a).bind g := by
  induction c with
  | done result => rfl
  | note event next ih => exact congrArg (Conversation.note event) ih
  | ask call next ih => exact congrArg (Conversation.ask call) (funext ih)
  | upload width batches next ih =>
      exact congrArg (Conversation.upload width batches) (funext ih)
  | searchAll width searches next ih =>
      exact congrArg (Conversation.searchAll width searches) (funext ih)

/-- Chaining that ends at the first failure may be bracketed either way. The
stages of a load are brought into one order by this. -/
theorem andThen_assoc (c : Conversation (Except ε α))
    (f : α → Conversation (Except ε β)) (g : β → Conversation (Except ε γ)) :
    (c.andThen f).andThen g = c.andThen fun a => (f a).andThen g := by
  unfold andThen
  rw [bind_assoc]
  congr 1
  funext result
  cases result with
  | error e => rfl
  | ok a => rfl

end Conversation

namespace Exchange

variable {α β ε : Type}

-- ============================================================= one step

/-- The exchange of a conversation that goes on with the result. -/
def bind (x : Exchange α) (f : α → Conversation β) : Exchange β :=
  match x.stage with
  | .ready c => ⟨.ready (c.bind f), x.fresh⟩
  | .asking number call next =>
      ⟨.asking number call fun reply => (next reply).bind f, x.fresh⟩
  | .uploading work next =>
      ⟨.uploading work fun tally => (next tally).bind f, x.fresh⟩
  | .searching work next =>
      ⟨.searching work fun replies => (next replies).bind f, x.fresh⟩

/-- There is a result exactly when the conversation is done. The next number is
then all that is left of the exchange. -/
theorem result?_eq_some_iff {x : Exchange α} {result : α} :
    x.result? = some result ↔ x = ⟨.ready (.done result), x.fresh⟩ := by
  obtain ⟨stage, fresh⟩ := x
  constructor
  · intro h
    unfold result? at h
    split at h
    · next heq =>
        cases h
        exact congrArg (Exchange.mk · fresh) heq
    · cases h
  · intro h
    rw [h]
    rfl

/-- Before its end the first conversation has no result, and neither have
both. -/
theorem result?_bind {x : Exchange α} {f : α → Conversation β}
    (h : x.result? = none) :
    (x.bind f).result? = none := by
  obtain ⟨stage, fresh⟩ := x
  cases stage with
  | asking number call next => rfl
  | uploading work next => rfl
  | searching work next => rfl
  | ready c =>
      cases c with
      | done result => cases h
      | note event next => rfl
      | ask call next => rfl
      | upload width batches next => rfl
      | searchAll width searches next => rfl

/-- Before its end a step is one of the first conversation, so that paths can
be cut where it ends. -/
theorem step_bind {x : Exchange α} {f : α → Conversation β} {moves : List Move}
    {y : Exchange β} (hnone : x.result? = none) (h : Step (x.bind f) moves y) :
    ∃ x', Step x moves x' ∧ y = x'.bind f := by
  obtain ⟨stage, fresh⟩ := x
  cases stage with
  | asking number call next =>
      cases h with
      | answer _ _ _ _ reply => exact ⟨_, .answer _ _ _ _ reply, rfl⟩
  | uploading work next =>
      cases h with
      | sendBatch _ _ _ _ _ _ hstart =>
          exact ⟨_, .sendBatch _ _ _ _ _ _ hstart, rfl⟩
      | answerBatch _ _ _ _ _ hflying hopen reply =>
          exact ⟨_, .answerBatch _ _ _ _ _ hflying hopen reply, rfl⟩
      | uploaded _ _ _ _ htally => exact ⟨_, .uploaded _ _ _ _ htally, rfl⟩
  | searching work next =>
      cases h with
      | sendSearch _ _ _ _ _ _ hstart =>
          exact ⟨_, .sendSearch _ _ _ _ _ _ hstart, rfl⟩
      | answerSearch _ _ _ _ _ hflying reply =>
          exact ⟨_, .answerSearch _ _ _ _ _ hflying reply, rfl⟩
      | searched _ _ _ _ hreplies => exact ⟨_, .searched _ _ _ _ hreplies, rfl⟩
  | ready c =>
      cases c with
      | done result => cases hnone
      | note event next =>
          cases h with
          | note _ _ _ => exact ⟨_, .note _ _ _, rfl⟩
      | ask call next =>
          cases h with
          | ask _ _ _ => exact ⟨_, .ask _ _ _, rfl⟩
      | upload width batches next =>
          cases h with
          | upload _ _ _ _ => exact ⟨_, .upload _ _ _ _, rfl⟩
      | searchAll width searches next =>
          cases h with
          | searchAll _ _ _ _ => exact ⟨_, .searchAll _ _ _ _, rfl⟩

-- ============================================================= the paths

/-- A path is one of the first conversation, or leads through its result. So
what is known of the parts is known of the whole. -/
theorem path_bind {x : Exchange α} {f : α → Conversation β} {moves : List Move}
    {y : Exchange β} (h : Path (x.bind f) moves y) :
    (∃ x', Path x moves x' ∧ x'.result? = none ∧ y = x'.bind f) ∨
    ∃ before after result fresh, moves = before ++ after ∧
      Path x before ⟨.ready (.done result), fresh⟩ ∧
        Path ⟨.ready (f result), fresh⟩ after y := by
  generalize hz : x.bind f = z at h
  induction h generalizing x with
  | refl z =>
      subst hz
      cases hresult : x.result? with
      | none => exact Or.inl ⟨x, .refl x, hresult, rfl⟩
      | some result =>
          rw [result?_eq_some_iff] at hresult
          rw [hresult]
          exact Or.inr ⟨[], [], result, x.fresh, rfl, .refl _, .refl _⟩
  | @step z z' y first rest hfirst hrest ih =>
      subst hz
      cases hresult : x.result? with
      | none =>
          obtain ⟨x', hstep, rfl⟩ := step_bind hresult hfirst
          rcases ih rfl with ⟨x'', hpath, hnone, rfl⟩ |
            ⟨before, after, result, fresh, rfl, hpath, hafter⟩
          · exact Or.inl ⟨x'', .step hstep hpath, hnone, rfl⟩
          · exact Or.inr ⟨first ++ before, after, result, fresh,
              (List.append_assoc ..).symm, .step hstep hpath, hafter⟩
      | some result =>
          rw [result?_eq_some_iff] at hresult
          rw [hresult] at hfirst ⊢
          exact Or.inr ⟨[], first ++ rest, result, x.fresh, rfl, .refl _,
            .step hfirst hrest⟩

/-- What has a result goes nowhere, so a result that was returned is the last
word. -/
theorem eq_of_path_done {result : α} {n : Nat} {moves : List Move}
    {x : Exchange α} (h : Path ⟨.ready (.done result), n⟩ moves x) :
    moves = [] ∧ x = ⟨.ready (.done result), n⟩ := by
  cases h with
  | refl _ => exact ⟨rfl, rfl⟩
  | step first _ => cases first

/-- A path is one of the first conversation, or leads through its success.
Through a failure it leads nowhere. -/
theorem path_andThen {c : Conversation (Except ε α)}
    {f : α → Conversation (Except ε β)} {n : Nat} {moves : List Move}
    {y : Exchange (Except ε β)} (h : Path ⟨.ready (c.andThen f), n⟩ moves y) :
    (∃ x, Path ⟨.ready c, n⟩ moves x ∧ x.result? = none ∧ y.result? = none) ∨
    (∃ x e, Path ⟨.ready c, n⟩ moves x ∧ x.result? = some (.error e) ∧
      y.result? = some (.error e)) ∨
    ∃ before after a fresh, moves = before ++ after ∧
      Path ⟨.ready c, n⟩ before ⟨.ready (.done (.ok a)), fresh⟩ ∧
      Path ⟨.ready (f a), fresh⟩ after y := by
  rcases @path_bind _ _ ⟨.ready c, n⟩ _ _ _ h with ⟨x, hpath, hnone, rfl⟩ |
    ⟨before, after, result, fresh, rfl, hpath, hafter⟩
  · exact Or.inl ⟨x, hpath, hnone, result?_bind hnone⟩
  cases result with
  | ok a => exact Or.inr (Or.inr ⟨before, after, a, fresh, rfl, hpath, hafter⟩)
  | error e =>
      obtain ⟨rfl, rfl⟩ := eq_of_path_done hafter
      rw [List.append_nil]
      exact Or.inr (Or.inl ⟨_, e, hpath, rfl, rfl⟩)

end Exchange

end KnnOracle
