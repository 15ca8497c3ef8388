/-
The stages of a load.

A load makes single calls, uploads, and makes single calls again. The calls
before and after the upload are inquiries (`Settings.preparations`,
`Settings.reading`), and with them the load is three conversations one after
another (`loadCorpus_eq`). `Course` says what can have been said by any
moment: each stage begins when the one before was gone through to its end, and
what ends a stage otherwise ends the load.

Looking for a call in a course means looking in the one stage that makes
calls of its kind (`Course.at_preparation`, `Course.at_upload`,
`Course.at_readBack`).
-/
import KnnOracle.Proofs.Exchange.Asking
import KnnOracle.Proofs.Upload.Boundary
import KnnOracle.Session.Load

namespace KnnOracle

-- ============================================================ the calls

/-- What a call of a load is made for. -/
inductive LoadStage where
  | preparation
  | upload
  | readBack
deriving DecidableEq

/-- The stage of a load that makes a call. -/
def Call.stage? : Call → Option LoadStage
  | .createCollection _ => some .preparation
  | .createIndex _ => some .preparation
  | .createTransaction _ => some .upload
  | .upsert _ => some .upload
  | .commit _ _ => some .upload
  | .abort _ _ => some .upload
  | .fetch _ => some .readBack
  | _ => none

theorem Call.stage?_of_isUpload {call : Call} (h : call.isUpload = true) :
    call.stage? = some .upload := by
  cases call with
  | createTransaction _ | upsert _ | commit _ _ | abort _ _ => rfl
  | _ => cases h

/-- A call of that stage is one of an upload, so that stage and kind are the
same. -/
theorem Call.isUpload_of_stage? {call : Call}
    (h : call.stage? = some .upload) :
    call.isUpload = true := by
  cases call with
  | createTransaction _ | upsert _ | commit _ _ | abort _ _ => rfl
  | _ => cases h

/-- What is called to read back is a fetch. -/
theorem Call.exists_fetch_of_stage? {call : Call}
    (h : call.stage? = some .readBack) :
    ∃ request, call = .fetch request := by
  cases call with
  | fetch request => exact ⟨request, rfl⟩
  | _ => cases h

/-- The stage of a load that something is said in. -/
def Move.stage? : Move → Option LoadStage
  | .note _ => none
  | .send _ call => call.stage?
  | .receive _ call _ => call.stage?

/-- A call for something that may be there already. -/
def Inquiry.ensuring (call : Call) (failure : CallError → Failure) :
    Inquiry Failure :=
  ⟨call, fun reply => (tolerated reply).mapError failure⟩

namespace Settings

variable (s : Settings)

/-- The call that creates the collection. -/
def creation : Call :=
  .createCollection
    (.ofDimension s.collection (some "Oracle validation corpus") s.dimension)

/-- The call that creates the index. -/
def indexing : Call := .createIndex (.cosineGraph s.collection)

/-- The call that fetches a record back. -/
def fetching (expected : Record) : Call := .fetch ⟨s.collection, expected.id⟩

/-- What is asked for before the upload. -/
def preparations : List (Inquiry Failure) :=
  .ensuring s.creation .collectionNotCreated ::
    if s.createIndex then [.ensuring s.indexing .indexNotCreated] else []

/-- What is made of the record that is fetched back. -/
def judgeStored (expected : Record) :
    Except CallError Record → Except Failure Unit
  | .error e => .error (.notReadBack expected.id e)
  | .ok stored => checkStored s.tolerance expected stored

/-- The question whether a record was stored. -/
def reading (expected : Record) : Inquiry Failure :=
  ⟨s.fetching expected, s.judgeStored expected⟩

end Settings

-- ======================================================== as inquiries

/-- Creating the collection and the index is making inquiries, with what lets
each of them pass. -/
theorem prepare_eq (s : Settings) :
    ((createCollection s).andThen fun () => createIndex s)
      = .askAll s.preparations := by
  refine congrArg (Conversation.ask s.creation) (funext fun reply => ?_)
  have hjudge : (Inquiry.ensuring s.creation .collectionNotCreated).judge reply
      = (tolerated reply).mapError .collectionNotCreated := rfl
  rw [hjudge]
  beta_reduce
  cases tolerated reply with
  | error e => rfl
  | ok done =>
      show createIndex s = .askAll (if s.createIndex then _ else _)
      unfold createIndex
      split
      · refine congrArg (Conversation.ask s.indexing) (funext fun reply => ?_)
        have hjudge :
            (Inquiry.ensuring s.indexing .indexNotCreated).judge reply
              = (tolerated reply).mapError .indexNotCreated := rfl
        rw [hjudge]
        cases tolerated reply with
        | error e => rfl
        | ok done => rfl
      · rfl

/-- Reading back is making inquiries as well, so one lemma about inquiries
serves both stages. -/
theorem readBack_eq (s : Settings) (list : List Record) :
    readBack s list = .askAll (list.map s.reading) := by
  induction list with
  | nil => rfl
  | cons expected rest ih =>
      rw [List.map_cons, Conversation.askAll, ← ih, readBack]
      refine congrArg (Conversation.ask _) (funext fun reply => ?_)
      cases reply with
      | error e => rfl
      | ok stored =>
          change Record at stored
          cases hstored : checkStored s.tolerance expected stored with
          | error e =>
              simp only [Settings.reading, Settings.judgeStored, hstored]
          | ok done =>
              simp only [Settings.reading, Settings.judgeStored, hstored]

/-- A load of a corpus is its three stages, one after the other. What is known
of stages is put together along this form. -/
private theorem loadCorpus_eq (s : Settings) (corpus : Corpus) :
    loadCorpus s corpus = .note (.corpusSize corpus.size)
      ((Conversation.askAll s.preparations).andThen fun () =>
        (uploadCorpus s corpus).andThen fun upload =>
          (Conversation.askAll
            ((sample corpus.records s.readback).map s.reading)).andThen
              fun () =>
            .done (.ok ⟨corpus, upload⟩)) := by
  unfold loadCorpus
  rw [← prepare_eq, Conversation.andThen_assoc, ← readBack_eq]

-- ============================================================ the course

/-- What can have been said of an upload of the corpus, with the numbers from
`n` on. -/
def Uploaded (s : Settings) (corpus : Corpus) (n : Nat) (moves : List Move)
    (result : Option (Except CallError Upload.Summary)) : Prop :=
  ∃ seen x,
    Exchange.Path
      ⟨.ready (Upload.start s.collection corpus.records s.uploadOptions), n⟩
      seen x ∧ talkIn seen = moves ∧ x.result? = result

/-- What can have been said of a load, and what it has returned by then. -/
inductive Course (s : Settings) (corpus : Corpus) (n : Nat) :
    List Move → Option (Except Failure Loaded) → Prop where
  | preparing {moves : List Move} (h : Asked n s.preparations moves none) :
      Course s corpus n moves none
  | unprepared {moves : List Move} (failure : Failure)
      (h : Asked n s.preparations moves (some (.error failure))) :
      Course s corpus n moves (some (.error failure))
  | uploading {prepared ups : List Move}
      (hprepared : Accepted n s.preparations prepared)
      (hups : Uploaded s corpus (n + s.preparations.length) ups none) :
      Course s corpus n (prepared ++ ups) none
  | notUploaded {prepared ups : List Move} (e : CallError)
      (hprepared : Accepted n s.preparations prepared)
      (hups : Uploaded s corpus (n + s.preparations.length) ups
        (some (.error e))) :
      Course s corpus n (prepared ++ ups) (some (.error (.uploadFailed e)))
  | reading {prepared ups back : List Move}
      {result : Option (Except Failure Unit)}
      (summary : Upload.Summary) (k : Nat)
      (hprepared : Accepted n s.preparations prepared)
      (hups : Uploaded s corpus (n + s.preparations.length) ups
        (some (.ok summary)))
      (hback : Asked k ((sample corpus.records s.readback).map s.reading) back
        result) :
      Course s corpus n (prepared ++ (ups ++ back))
        (result.map (Except.map fun () => ⟨corpus, summary⟩))

namespace Exchange

variable {s : Settings} {corpus : Corpus} {n : Nat} {moves : List Move}

/-- The upload of a corpus is an upload, but for its failure, which is named
otherwise. -/
theorem path_uploadCorpus {x : Exchange (Except Failure Upload.Summary)}
    (h : Path ⟨.ready (uploadCorpus s corpus), n⟩ moves x) :
    ∃ result, Uploaded s corpus n (talkIn moves) result ∧
      x.result? = result.map (Except.mapError Failure.uploadFailed) := by
  rcases @path_bind
    _ _ ⟨.ready (Upload.start s.collection corpus.records s.uploadOptions), n⟩
    _ _ _ h with ⟨y, hpath, hnone, rfl⟩ |
      ⟨before, after, result, fresh, rfl, hpath, hafter⟩
  · exact ⟨none, ⟨_, _, hpath, rfl, hnone⟩, result?_bind hnone⟩
  · cases result with
    | ok summary =>
        obtain ⟨rfl, rfl⟩ := eq_of_path_done hafter
        exact ⟨_, ⟨_, _, hpath, by rw [List.append_nil], rfl⟩, rfl⟩
    | error e =>
        obtain ⟨rfl, rfl⟩ := eq_of_path_done hafter
        exact ⟨_, ⟨_, _, hpath, by rw [List.append_nil], rfl⟩, rfl⟩

/-- What comes after the upload: nothing if it has failed, and the sample
otherwise. -/
theorem path_reading {x : Exchange (Except Failure Loaded)}
    {upload : Upload.Summary}
    (h :
      Path
        ⟨.ready
          ((Conversation.askAll
            ((sample corpus.records s.readback).map s.reading)).andThen
              fun () => .done (.ok ⟨corpus, upload⟩)), n⟩ moves x) :
    ∃ result, Asked n ((sample corpus.records s.readback).map s.reading)
      (talkIn moves) result ∧
      x.result? = result.map (Except.map fun () => ⟨corpus, upload⟩) := by
  rcases path_andThen h with ⟨y, hpath, hnone, hresult⟩ |
    ⟨y, e, hpath, he, hresult⟩ |
    ⟨before, after, done, fresh, rfl, hpath, hafter⟩
  · refine ⟨none, ?_, hresult⟩
    rw [← hnone]
    exact (path_askAll hpath).1
  · refine ⟨some (.error e), ?_, hresult⟩
    rw [← he]
    exact (path_askAll hpath).1
  · obtain ⟨rfl, rfl⟩ := eq_of_path_done hafter
    rw [List.append_nil]
    exact ⟨some (.ok ()), (path_askAll hpath).1, rfl⟩

/-- Every path of a load is on a course. The three stages are chained here, and
are told apart again below. -/
theorem path_loadCorpus {x : Exchange (Except Failure Loaded)}
    (h : Path ⟨.ready (loadCorpus s corpus), n⟩ moves x) :
    Course s corpus n (talkIn moves) x.result? := by
  rw [loadCorpus_eq] at h
  rcases path_note h with ⟨htalk, hresult⟩ | ⟨rest, htalk, h⟩
  · rw [htalk, hresult]
    exact .preparing (.due _ _ _)
  rw [htalk]
  rcases path_andThen h with ⟨y, hpath, hnone, hresult⟩ |
    ⟨y, e, hpath, he, hresult⟩ |
    ⟨before, after, ⟨⟩, fresh, rfl, hpath, hafter⟩
  · rw [hresult]
    refine .preparing ?_
    rw [← hnone]
    exact (path_askAll hpath).1
  · rw [hresult]
    refine .unprepared e ?_
    rw [← he]
    exact (path_askAll hpath).1
  obtain ⟨hprepared, hfresh⟩ := path_askAll hpath
  obtain rfl : fresh = n + s.preparations.length := hfresh rfl
  rw [talkIn_append]
  rcases path_andThen hafter with ⟨y, hpath, hnone, hresult⟩ |
    ⟨y, e, hpath, he, hresult⟩ |
    ⟨ups, back, upload, fresh, rfl, hpath, hback⟩
  · obtain ⟨result, hups, heq⟩ := path_uploadCorpus hpath
    cases result with
    | some result =>
        rw [hnone] at heq
        cases heq
    | none =>
        rw [hresult]
        exact .uploading hprepared hups
  · obtain ⟨result, hups, heq⟩ := path_uploadCorpus hpath
    rw [he] at heq
    match result with
    | some (.error cause) =>
        cases heq
        rw [hresult]
        exact .notUploaded cause hprepared hups
    | some (.ok summary) => cases heq
    | none => cases heq
  · obtain ⟨result, hups, heq⟩ := path_uploadCorpus hpath
    match result with
    | some (.ok summary) =>
        cases heq
        obtain ⟨result, hread, hresult⟩ := path_reading hback
        rw [talkIn_append, hresult]
        exact .reading upload fresh hprepared hups hread
    | some (.error cause) => cases heq
    | none => cases heq

end Exchange

-- ============================================================ the stages

section stages

variable {s : Settings} {corpus : Corpus} {n : Nat} {moves : List Move}
  {move : Move}

theorem Asked.stage?_preparations {result : Option (Except Failure Unit)}
    (h : Asked n s.preparations moves result) (hmem : move ∈ moves) :
    move.stage? = some .preparation := by
  obtain ⟨i, q, hq, hform⟩ := h.forms hmem
  have hcall : q.call.stage? = some .preparation := by
    rcases List.mem_cons.mp (List.mem_of_getElem? hq) with rfl | hq
    · rfl
    · split at hq
      · rw [List.mem_singleton.mp hq]
        rfl
      · cases hq
  rcases hform with rfl | ⟨reply, rfl⟩
  · exact hcall
  · exact hcall

private theorem Asked.stage?_reading {list : List Record}
    {result : Option (Except Failure Unit)}
    (h : Asked n (list.map s.reading) moves result) (hmem : move ∈ moves) :
    move.stage? = some .readBack := by
  obtain ⟨i, q, hq, hform⟩ := h.forms hmem
  obtain ⟨expected, -, rfl⟩ := List.mem_map.mp (List.mem_of_getElem? hq)
  rcases hform with rfl | ⟨reply, rfl⟩
  · rfl
  · rfl

theorem Uploaded.stage? {result : Option (Except CallError Upload.Summary)}
    (h : Uploaded s corpus n moves result) (hmem : move ∈ moves) :
    move.stage? = some .upload := by
  obtain ⟨seen, x, hpath, rfl, -⟩ := h
  cases move with
  | note event => cases (List.mem_filter.mp hmem).2
  | send number call =>
      exact Call.stage?_of_isUpload (Upload.isUpload_of_send hpath hmem)
  | receive number call reply =>
      exact Call.stage?_of_isUpload (Upload.isUpload_of_receive hpath hmem)

/-- What belongs to one stage is not said in another. -/
theorem Asked.not_mem_preparations {result : Option (Except Failure Unit)}
    {stage : LoadStage} (h : Asked n s.preparations moves result)
    (hstage : move.stage? = some stage) (hne : stage ≠ .preparation) :
    move ∉ moves := fun hmem =>
  hne (Option.some.inj (hstage.symm.trans (h.stage?_preparations hmem)))

/-- A move of another stage was not made during the upload. This places each
kind of call in its part of a course. -/
private theorem Uploaded.not_mem
    {result : Option (Except CallError Upload.Summary)} {stage : LoadStage}
    (h : Uploaded s corpus n moves result) (hstage : move.stage? = some stage)
    (hne : stage ≠ .upload) : move ∉ moves :=
  fun hmem => hne (Option.some.inj (hstage.symm.trans (h.stage? hmem)))

private theorem Asked.not_mem_reading {list : List Record}
    {result : Option (Except Failure Unit)} {stage : LoadStage}
    (h : Asked n (list.map s.reading) moves result)
    (hstage : move.stage? = some stage) (hne : stage ≠ .readBack) :
    move ∉ moves :=
  fun hmem => hne (Option.some.inj (hstage.symm.trans (h.stage?_reading hmem)))

end stages

namespace Course

variable {s : Settings} {corpus : Corpus} {n : Nat}
  {moves before after : List Move} {move : Move}
  {result : Option (Except Failure Loaded)}

/-- Whatever is said is said in one of the stages. -/
theorem stage?_of_mem (h : Course s corpus n moves result)
    (hmem : move ∈ moves) :
    move.stage? = some .preparation ∨ move.stage? = some .upload ∨
    move.stage? = some .readBack := by
  cases h with
  | preparing h => exact Or.inl (h.stage?_preparations hmem)
  | unprepared failure h => exact Or.inl (h.stage?_preparations hmem)
  | uploading hprepared hups =>
      rcases List.mem_append.mp hmem with hmem | hmem
      · exact Or.inl (hprepared.stage?_preparations hmem)
      · exact Or.inr (Or.inl (hups.stage? hmem))
  | notUploaded e hprepared hups =>
      rcases List.mem_append.mp hmem with hmem | hmem
      · exact Or.inl (hprepared.stage?_preparations hmem)
      · exact Or.inr (Or.inl (hups.stage? hmem))
  | reading summary k hprepared hups hback =>
      rcases List.mem_append.mp hmem with hmem | hmem
      · exact Or.inl (hprepared.stage?_preparations hmem)
      rcases List.mem_append.mp hmem with hmem | hmem
      · exact Or.inr (Or.inl (hups.stage? hmem))
      · exact Or.inr (Or.inr (hback.stage?_reading hmem))

/-- What is said of the preparations is said first, with nothing of the other
stages before it. -/
theorem at_preparation (h : Course s corpus n moves result)
    (hsplit : moves = before ++ move :: after)
    (hstage : move.stage? = some .preparation) :
    ∃ prepared inner rest outcome, Asked n s.preparations prepared outcome ∧
      prepared = before ++ move :: inner ∧ after = inner ++ rest ∧
      ∀ failure, outcome = some (.error failure) →
        rest = [] ∧ result = some (.error failure) := by
  cases h with
  | preparing h =>
      exact ⟨moves, after, [], none, h, hsplit,
        (List.append_nil _).symm, nofun⟩
  | unprepared failure h =>
      refine ⟨moves, after, [], some (.error failure), h, hsplit,
        (List.append_nil _).symm, ?_⟩
      rintro _ ⟨⟩
      exact ⟨rfl, rfl⟩
  | uploading hprepared hups =>
      obtain ⟨inner, hinner, hafter⟩ :=
        exists_append_of_not_mem_right hsplit (hups.not_mem hstage nofun)
      exact ⟨_, inner, _, some (.ok ()), hprepared, hinner, hafter, nofun⟩
  | notUploaded e hprepared hups =>
      obtain ⟨inner, hinner, hafter⟩ :=
        exists_append_of_not_mem_right hsplit (hups.not_mem hstage nofun)
      exact ⟨_, inner, _, some (.ok ()), hprepared, hinner, hafter, nofun⟩
  | reading summary k hprepared hups hback =>
      have hlater : move ∉ _ ++ _ :=
        List.not_mem_append (hups.not_mem hstage nofun)
        (hback.not_mem_reading hstage nofun)
      obtain ⟨inner, hinner, hafter⟩ :=
        exists_append_of_not_mem_right hsplit hlater
      exact ⟨_, inner, _, some (.ok ()), hprepared, hinner, hafter, nofun⟩

/-- What is said of the upload is said behind all preparations, which have
passed by then. -/
theorem at_upload (h : Course s corpus n moves result)
    (hsplit : moves = before ++ move :: after)
    (hstage : move.stage? = some .upload) :
    ∃ prepared earlier ups inner rest outcome, before = prepared ++ earlier ∧
      Accepted n s.preparations prepared ∧
      Uploaded s corpus (n + s.preparations.length) ups outcome ∧
      ups = earlier ++ move :: inner ∧ after = inner ++ rest ∧
      (∀ other ∈ rest, other.stage? = some .readBack) ∧
      (outcome = none → rest = [] ∧ result = none) ∧
      ∀ e, outcome = some (.error e) → rest = [] ∧
        result = some (.error (.uploadFailed e)) := by
  have hmem : move ∈ moves :=
    hsplit ▸ List.mem_append_right _ List.mem_cons_self
  cases h with
  | preparing h => exact absurd hmem (h.not_mem_preparations hstage nofun)
  | unprepared failure h =>
      exact absurd hmem (h.not_mem_preparations hstage nofun)
  | uploading hprepared hups =>
      obtain ⟨earlier, hbefore, hsplit⟩ :=
        exists_append_of_not_mem_left hsplit
          (hprepared.not_mem_preparations hstage nofun)
      exact ⟨_, earlier, _, after, [], none, hbefore, hprepared, hups, hsplit,
        (List.append_nil _).symm, nofun, fun _ => ⟨rfl, rfl⟩, nofun⟩
  | notUploaded e hprepared hups =>
      obtain ⟨earlier, hbefore, hsplit⟩ :=
        exists_append_of_not_mem_left hsplit
          (hprepared.not_mem_preparations hstage nofun)
      refine ⟨_, earlier, _, after, [], some (.error e), hbefore, hprepared,
        hups, hsplit, (List.append_nil _).symm, nofun, nofun, ?_⟩
      rintro _ ⟨⟩
      exact ⟨rfl, rfl⟩
  | reading summary k hprepared hups hback =>
      obtain ⟨earlier, hbefore, hsplit⟩ :=
        exists_append_of_not_mem_left hsplit
          (hprepared.not_mem_preparations hstage nofun)
      obtain ⟨inner, hinner, hafter⟩ :=
        exists_append_of_not_mem_right hsplit
          (hback.not_mem_reading hstage nofun)
      exact ⟨_, earlier, _, inner, _, _, hbefore, hprepared, hups,
        hinner, hafter, fun other hmem => hback.stage?_reading hmem, nofun,
        nofun⟩

/-- What is fetched back is fetched behind an upload that went well. -/
theorem at_readBack (h : Course s corpus n moves result)
    (hsplit : moves = before ++ move :: after)
    (hstage : move.stage? = some .readBack) :
    ∃ prepared ups earlier back summary k outcome,
      before = prepared ++ (ups ++ earlier) ∧
      Accepted n s.preparations prepared ∧
      Uploaded s corpus (n + s.preparations.length) ups (some (.ok summary)) ∧
      Asked k ((sample corpus.records s.readback).map s.reading) back outcome ∧
      back = earlier ++ move :: after ∧
      result = outcome.map (Except.map fun () => ⟨corpus, summary⟩) := by
  have hmem : move ∈ moves :=
    hsplit ▸ List.mem_append_right _ List.mem_cons_self
  cases h with
  | preparing h => exact absurd hmem (h.not_mem_preparations hstage nofun)
  | unprepared failure h =>
      exact absurd hmem (h.not_mem_preparations hstage nofun)
  | uploading hprepared hups =>
      rcases List.mem_append.mp hmem with hmem | hmem
      · exact absurd hmem (hprepared.not_mem_preparations hstage nofun)
      · exact absurd hmem (hups.not_mem hstage nofun)
  | notUploaded e hprepared hups =>
      rcases List.mem_append.mp hmem with hmem | hmem
      · exact absurd hmem (hprepared.not_mem_preparations hstage nofun)
      · exact absurd hmem (hups.not_mem hstage nofun)
  | reading summary k hprepared hups hback =>
      obtain ⟨middle, rfl, hlater⟩ :=
        exists_append_of_not_mem_left hsplit
          (hprepared.not_mem_preparations hstage nofun)
      obtain ⟨earlier, rfl, hlast⟩ :=
        exists_append_of_not_mem_left hlater (hups.not_mem hstage nofun)
      exact ⟨_, _, earlier, _, summary, k, _, rfl, hprepared, hups, hback,
        hlast, rfl⟩

/-- A load that went well went through all stages. -/
theorem of_ok {loaded : Loaded}
    (h : Course s corpus n moves (some (.ok loaded))) :
    ∃ prepared ups back k, moves = prepared ++ (ups ++ back) ∧
      Accepted n s.preparations prepared ∧
      Uploaded s corpus (n + s.preparations.length) ups
        (some (.ok loaded.upload)) ∧
      Accepted k ((sample corpus.records s.readback).map s.reading) back ∧
      loaded.corpus = corpus := by
  generalize hresult : some (Except.ok loaded) = result at h
  cases h with
  | preparing h => cases hresult
  | unprepared failure h => cases hresult
  | uploading hprepared hups => cases hresult
  | notUploaded e hprepared hups => cases hresult
  | @reading _ _ _ outcome summary k hprepared hups hback =>
      match outcome with
      | some (.ok ()) =>
          cases hresult
          exact ⟨_, _, _, k, rfl, hprepared, hups, hback, rfl⟩
      | some (.error failure) => cases hresult
      | none => cases hresult

end Course

end KnnOracle
