/-
The course of an upload.

Whatever a service answers, and in whatever order, what is seen of an
upload is one of a few forms. This file lists them: `Course` is what the
two sides can have said to each other by any moment, together with the
result if the upload has returned. That every path of an upload is on one
of these courses is `path_start`.

# The forms

A transaction is opened, or the upload returns the error. Then come the
batches, of which only the machine `Uploading` knows more
(`Uploading.After`). What comes after them depends on the tally
(`Ending`): a refused batch leads to the abort, and no refusal to the
commit, which again leads to the abort if it fails. The abort ends the
upload whatever it is answered with (`Abandoned`).
-/
import KnnOracle.Exchange.Upload
import KnnOracle.Proofs.Exchange.Batches

namespace KnnOracle.Upload

open Exchange

-- ============================================================= the forms

/-- What is returned for options that make no sense. -/
def Options.fault (options : Options) : CallError :=
  .invalidOption ("batch_size and workers must be positive (got " ++
    toString options.batchSize ++ " and " ++ toString options.workers ++ ")")

/-- An upload that failed with `e` aborts its transaction, by the call
with number `k`. -/
inductive Abandoned (collection : String) (transaction : TransactionId)
    (k : Nat) (e : CallError) :
    List Move → Option (Except CallError Summary) → Prop where
  | due : Abandoned collection transaction k e [] none
  | sent : Abandoned collection transaction k e
      [.send k (.abort collection transaction)] none
  | answered (reply : Reply (.abort collection transaction)) :
      Abandoned collection transaction k e
        [.send k (.abort collection transaction),
          .receive k (.abort collection transaction) reply]
        (some (.error e))

/-- What follows the batches of an upload. Its calls have the numbers `k`
and `k + 1`. -/
inductive Ending (collection : String) (summary : Summary) (k : Nat)
    (u : Uploading) :
    List Move → Option (Except CallError Summary) → Prop where
  | quiet : Ending collection summary k u [] none
  | refused {tail : List Move} {result : Option (Except CallError Summary)}
      (batch : Nat)
      (cause : CallError) (hrefused : u.refused? = some (batch, cause))
      (h : Abandoned collection summary.transaction k
        (.batchFailed batch cause) tail result) :
      Ending collection summary k u tail result
  | committing (hu : u.IsAccepted) :
      Ending collection summary k u
        [.send k (.commit collection summary.transaction)] none
  | committed (hu : u.IsAccepted) :
      Ending collection summary k u
        [.send k (.commit collection summary.transaction),
          .receive k (.commit collection summary.transaction) (.ok ())]
        (some (.ok summary))
  | uncommitted {tail : List Move} {result : Option (Except CallError Summary)}
      (e : CallError)
      (hu : u.IsAccepted)
      (h : Abandoned collection summary.transaction (k + 1) e tail result) :
      Ending collection summary k u
        (.send k (.commit collection summary.transaction) ::
          .receive k (.commit collection summary.transaction) (.error e)
            :: tail)
        result

/-- What is said from the opening of a transaction on, where `rest` comes
after it. -/
def opening (collection : String) (transaction : TransactionId) (n : Nat)
    (rest : List Move) :
    List Move :=
  .send n (.createTransaction collection) ::
    .receive n (.createTransaction collection) (.ok transaction) :: rest

/-- What the two sides of an upload can have said, and what the upload has
returned by then. Its calls have the numbers from `n` on. -/
inductive Course (collection : String) (records : List Record)
    (options : Options) (n : Nat) :
    List Move → Option (Except CallError Summary) → Prop where
  | quiet : Course collection records options n [] none
  | asking : Course collection records options n
      [.send n (.createTransaction collection)] none
  | unopened (e : CallError) :
      Course collection records options n
        [.send n (.createTransaction collection),
          .receive n (.createTransaction collection) (.error e)]
        (some (.error e))
  | opened {ups tail : List Move} {result : Option (Except CallError Summary)}
      (transaction : TransactionId) (all : List Batch) (u : Uploading)
      (hall : all = batches collection transaction records options.batchSize)
      (hafter : u.After options.workers (n + 1) all ups)
      (hending : Ending collection ⟨transaction, all.length, records.length⟩
        (n + 1 + all.length) u tail result) :
      Course collection records options n
        (opening collection transaction n (ups ++ tail)) result

-- ========================================================= from the paths

section paths

variable {collection : String} {records : List Record} {options : Options}
  {transaction : TransactionId} {summary : Summary} {n : Nat}
  {moves : List Move}
  {x : Exchange (Except CallError Summary)}

private theorem path_abandon {e : CallError}
    (h : Path ⟨.ready (abandon collection transaction (.done (.error e))), n⟩
      moves x) :
    Abandoned collection transaction n e (talkIn moves) x.result? := by
  unfold abandon at h
  rcases path_note h with ⟨htalk, hresult⟩ | ⟨rest, hrest, h⟩
  · rw [htalk, hresult]
    exact .due
  rw [hrest]
  rcases path_ask h with ⟨htalk, hresult⟩ | ⟨htalk, hresult⟩ |
    ⟨reply, last, htalk, h⟩
  · rw [htalk, hresult]
    exact .due
  · rw [htalk, hresult]
    exact .sent
  · obtain ⟨rfl, hresult⟩ := path_done h
    rw [htalk, hresult]
    exact .answered reply

/-- Once all batches are accepted, the upload commits. It ends well if that is
accepted and gives up otherwise. -/
private theorem path_commit {u : Uploading} (hu : u.IsAccepted)
    (h : Path ⟨.ready (commit collection summary), n⟩ moves x) :
    Ending collection summary n u (talkIn moves) x.result? := by
  unfold commit at h
  rcases path_ask h with ⟨htalk, hresult⟩ | ⟨htalk, hresult⟩ |
    ⟨reply, rest, htalk, h⟩
  · rw [htalk, hresult]
    exact .quiet
  · rw [htalk, hresult]
    exact .committing hu
  · rw [htalk]
    cases reply with
    | ok done =>
        obtain ⟨rfl, hresult⟩ := path_done h
        rw [hresult]
        exact .committed hu
    | error e => exact .uncommitted e hu (path_abandon h)

/-- What follows the batches is told by the tally: a commit if there was no
refusal, an abort after the first of them. -/
private theorem path_conclude {u : Uploading} {tally : Tally}
    (htally : u.tally? = some tally)
    (h : Path ⟨.ready (conclude collection summary tally), n⟩ moves x) :
    Ending collection summary n u (talkIn moves) x.result? := by
  unfold conclude at h
  rcases path_noteAll h with ⟨htalk, hresult⟩ | ⟨rest, hrest, h⟩
  · rw [htalk, hresult]
    exact .quiet
  rw [hrest]
  obtain ⟨hsame, haccepted⟩ := Uploading.tally?_eq_some htally
  cases hrefused : tally.refused? with
  | none =>
      rw [hrefused] at h
      exact path_commit (haccepted hrefused) h
  | some refusal =>
      obtain ⟨batch, cause⟩ := refusal
      rw [hrefused] at h
      rcases path_note h with ⟨htalk, hresult⟩ | ⟨last, hlast, h⟩
      · rw [htalk, hresult]
        exact .quiet
      · rw [hlast]
        exact .refused batch cause (hsame.symm.trans hrefused) (path_abandon h)

/-- Every path of an upload is on a course, so that later files look at courses
and not at paths. -/
theorem path_start (hvalid : ¬(options.batchSize = 0 ∨ options.workers = 0))
    (h : Path ⟨.ready (start collection records options), n⟩ moves x) :
    Course collection records options n (talkIn moves) x.result? := by
  unfold start at h
  rw [if_neg hvalid] at h
  rcases path_ask h with ⟨htalk, hresult⟩ | ⟨htalk, hresult⟩ |
    ⟨reply, rest, htalk, h⟩
  · rw [htalk, hresult]
    exact .quiet
  · rw [htalk, hresult]
    exact .asking
  · rw [htalk]
    cases reply with
    | error e =>
        obtain ⟨rfl, hresult⟩ := path_done h
        rw [hresult]
        exact .unopened e
    | ok transaction =>
        rcases path_upload h with ⟨u, hafter, hresult⟩ |
          ⟨u, tally, ups, last, rfl, hafter, htally, h⟩
        · rw [hresult, hafter.talkIn_eq, ← List.append_nil rest]
          exact .opened transaction _ u rfl hafter .quiet
        · rw [talkIn_append, hafter.talkIn_eq]
          exact .opened transaction _ u rfl hafter (path_conclude htally h)

/-- With a number of zero an upload returns at once, and nothing is sent. -/
theorem path_start_of_invalid
    (hinvalid : options.batchSize = 0 ∨ options.workers = 0)
    (h : Path ⟨.ready (start collection records options), n⟩ moves x) :
    moves = [] ∧ x.result? = some (.error options.fault) := by
  unfold start at h
  rw [if_pos hinvalid] at h
  exact path_done h

end paths

end KnnOracle.Upload
