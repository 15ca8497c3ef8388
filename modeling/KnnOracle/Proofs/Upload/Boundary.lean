/-
An upload among other calls.

Whoever makes other calls before and after an upload wants to know little of
it: which calls are the upload's (`isUpload_of_send`, `isUpload_of_receive`),
with which of them it begins (`opens_first`), and that it went well if and
only if its commit was answered so (`exists_ok_iff`). Any error that is
answered to one of its calls is the end of its success
(`ne_ok_of_refusal`).
-/
import KnnOracle.Proofs.Exchange.Replies
import KnnOracle.Proofs.Upload.Protocol

namespace KnnOracle

/-- Whether a call is one that uploads make. -/
def Call.isUpload : Call → Bool
  | .createTransaction _ => true
  | .upsert _ => true
  | .commit _ _ => true
  | .abort _ _ => true
  | _ => false

namespace Upload

open Exchange

variable {collection : String} {records : List Record} {options : Options}
  {n : Nat}
  {moves : List Move} {x : Exchange (Except CallError Summary)} {number : Nat}
  {call : Call}

/-- The calls of an upload: its opening, its batches, its commit and its
abort. -/
theorem call_forms
    (h : Path ⟨.ready (start collection records options), n⟩ moves x)
    (hmem : (number, call) ∈ callsIn (talkIn moves)) :
    (number, call) = (n, .createTransaction collection) ∨
    (∃ batch, call = .upsert batch) ∨
    ∃ transaction,
      call = .commit collection transaction ∨
        call = .abort collection transaction := by
  rcases (lawful_of_path h).calls number call hmem with heq |
    ⟨transaction, -, hjob | hend⟩
  · exact Or.inl heq
  · obtain ⟨⟨_, batch⟩, -, heq⟩ := List.mem_map.mp hjob
    cases heq
    exact Or.inr (Or.inl ⟨batch, rfl⟩)
  · exact Or.inr (Or.inr ⟨transaction, hend⟩)

/-- An upload sends nothing but calls of an upload. A load tells by this which
of its calls come from its upload. -/
theorem isUpload_of_send
    (h : Path ⟨.ready (start collection records options), n⟩ moves x)
    (hmem : Move.send number call ∈ talkIn moves) : call.isUpload = true := by
  rcases call_forms h (mem_callsIn.mpr hmem) with heq | ⟨batch, rfl⟩ |
    ⟨transaction, rfl | rfl⟩
  · cases heq
    rfl
  · rfl
  · rfl
  · rfl

/-- An upload is answered nothing but calls of an upload, since it receives
answers to its own calls only. -/
theorem isUpload_of_receive
    (h : Path ⟨.ready (start collection records options), n⟩ moves x)
    {reply : Reply call}
    (hmem : Move.receive number call reply ∈ talkIn moves) :
    call.isUpload = true :=
  isUpload_of_send h (mem_callsIn.mp (mem_callsIn_of_receive h hmem))

/-- A transaction is asked for once, before all else. -/
theorem opens_first
    (h : Path ⟨.ready (start collection records options), n⟩ moves x)
    {before after : List Move} {name : String}
    (hsplit : talkIn moves = before ++ .send number (.createTransaction name)
      :: after) :
    before = [] ∧ number = n ∧ name = collection := by
  have hmem : Move.send number (.createTransaction name) ∈ talkIn moves :=
    hsplit ▸ List.mem_append_right _ List.mem_cons_self
  obtain ⟨rfl, rfl⟩ : number = n ∧ name = collection := by
    rcases call_forms h (mem_callsIn.mpr hmem) with heq | ⟨batch, heq⟩ |
      ⟨transaction, heq | heq⟩ <;> cases heq
    exact ⟨rfl, rfl⟩
  refine ⟨?_, rfl, rfl⟩
  have hnumbers := (lawful_of_path h).numbers
  by_cases hinvalid : options.batchSize = 0 ∨ options.workers = 0
  · rw [((lawful_of_path h).invalid hinvalid).1] at hmem
    cases hmem
  unfold start at h
  rw [if_neg hinvalid] at h
  rcases path_ask h with ⟨htalk, -⟩ | ⟨htalk, -⟩ | ⟨reply, rest, htalk, -⟩
  · rw [htalk] at hmem
    cases hmem
  all_goals
    cases before with
    | nil => rfl
    | cons head before =>
        -- the number would be given twice
        rw [htalk] at hsplit
        rw [htalk, (List.cons.inj hsplit).2] at hnumbers
        refine absurd ?_ (List.nodup_cons.mp hnumbers).1
        exact List.mem_map.mpr ⟨(number, .createTransaction name),
          mem_callsIn.mpr
          (List.mem_append_right _ List.mem_cons_self), rfl⟩

/-- An upload goes well if and only if its commit does. A load looks at the
commit to know how the upload went. -/
theorem exists_ok_iff
    (h : Path ⟨.ready (start collection records options), n⟩ moves x) :
    (∃ summary, x.result? = some (.ok summary)) ↔
      ∃ number transaction,
        Move.receive number (.commit collection transaction) (.ok ())
          ∈ talkIn moves := by
  have hlawful := lawful_of_path h
  constructor
  · rintro ⟨summary, hresult⟩
    cases hlawful.outcome _ hresult with
    | committed transaction number _ hcommit =>
        exact ⟨number, transaction, hcommit⟩
  · rintro ⟨number, transaction, hcommit⟩
    exact ⟨_, hlawful.committed _ _ _ hcommit⟩

/-- An upload that was refused something does not go well. No refusal is passed
over, not even a conflict. -/
theorem ne_ok_of_refusal
    (h : Path ⟨.ready (start collection records options), n⟩ moves x)
    {e : CallError} (hmem : Move.receive number call (.error e) ∈ talkIn moves)
    (summary : Summary) : x.result? ≠ some (.ok summary) := by
  intro hresult
  have hlawful := lawful_of_path h
  have hsent := mem_callsIn_of_receive h hmem
  rcases call_forms h hsent with heq | ⟨batch, rfl⟩ | ⟨transaction, rfl | rfl⟩
  · cases heq
    have := (hlawful.unopened e hmem).2
    rw [hresult] at this
    cases this
  · cases (hlawful.refused number batch e hmem).2 _ hresult
  · cases hlawful.uncommitted number collection transaction e hmem _ hresult
  · have hkept := hlawful.kept summary hresult
    have habort : (number, Call.abort collection transaction)
        ∈ abortsIn (talkIn moves) :=
      List.mem_filter.mpr ⟨hsent, rfl⟩
    rw [hkept] at habort
    cases habort

end Upload

end KnnOracle
