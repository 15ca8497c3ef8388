/-
What a load asks of a service, and what it returns.

`LawfulLoad` says which calls a load makes, when it makes them and what it
makes of the replies, for any service: nothing is assumed of what the service
replies, when, or in which order. It speaks of calls sent and replies
received, and of the result, at any moment of the load (`load_lawful`).

# The three stages

A conflict is no failure where the collection and the index are created
(`Passes`), and nowhere else. An upload between these calls and the fetches
is lawful in its own right. What is fetched back is a sample of the corpus,
and each of it must be there as it was sent (`Settings.Restores`); what goes
wrong first (`Settings.Misread`) is returned.

# The route

Most fields are a look into one stage of the course. The result is what all of
them have come to: a load goes well if and only if each stage was gone through
to its end, and the last of these ends are the commit and the sample; it fails
where the first stage did (`LoadCause`).
-/
import KnnOracle.Proofs.Corpus.Making
import KnnOracle.Proofs.Exchange.Returning
import KnnOracle.Proofs.Session.ReadBack
import KnnOracle.Proofs.Session.Validating

namespace KnnOracle

-- ====================================================== the specification

/-- The reply lets a load go on: the thing was made, or was there. -/
def Passes {α : Type} (reply : Except CallError α) : Prop :=
  ∀ e, reply = .error e → e.status? = some conflict

namespace Settings

/-- The calls that prepare an upload, the first with the number `n`: one for
the collection, and one for the index exactly when there is to be one. -/
def preparatory (s : Settings) (n : Nat) : List (Nat × Call) :=
  (n, s.creation) :: if s.createIndex then [(n + 1, s.indexing)] else []

/-- The calls that prepare an upload are what was sent, and all have passed. -/
def Prepared (s : Settings) (n : Nat) (moves : List Move) : Prop :=
  callsIn moves = s.preparatory n ∧
  ∀ job ∈ s.preparatory n, ∃ reply, Move.receive job.1 job.2 reply ∈ moves ∧
    Passes reply

end Settings

/-- What was said that makes a load fail as it does. -/
inductive LoadCause (s : Settings) (corpus : Corpus) (n : Nat)
    (moves : List Move) : Failure → Prop where
  | creation (e : CallError) (h : Move.receive n s.creation (.error e) ∈ moves)
      (hstatus : e.status? ≠ some conflict) :
      LoadCause s corpus n moves (.collectionNotCreated e)
  | indexing (e : CallError)
      (h : Move.receive (n + 1) s.indexing (.error e) ∈ moves)
      (hstatus : e.status? ≠ some conflict) :
      LoadCause s corpus n moves (.indexNotCreated e)
  | upload (before ups : List Move) (e : CallError) (h : moves = before ++ ups)
      (hbefore : s.Prepared n before)
      (hups : Upload.Lawful s.collection corpus.records s.uploadOptions
        (n + (s.preparatory n).length) ups (some (.error e))) :
      LoadCause s corpus n moves (.uploadFailed e)
  | readBack (number : Nat) (expected : Record)
      (reply : Except CallError Record)
      (failure : Failure)
      (h : Move.receive number (s.fetching expected) reply ∈ moves)
      (hsample : expected ∈ sample corpus.records s.readback)
      (hmisread : s.Misread expected reply failure) :
      LoadCause s corpus n moves failure

/-- The two sides of a load have said `moves` to each other, its first call
having the number `n`, and the result is `result` if there is one. -/
structure LawfulLoad (s : Settings) (corpus : Corpus) (n : Nat)
    (moves : List Move) (result : Option (Except Failure Loaded)) : Prop where
  /-- There are three kinds of calls, and whatever is received is the reply to
  one of them. -/
  calls : ∀ number call, (number, call) ∈ callsIn moves →
    (number, call) ∈ s.preparatory n ∨ call.isUpload = true ∨
      ∃ request, call = .fetch request
  answered : ∀ number call reply, Move.receive number call reply ∈ moves →
    (number, call) ∈ callsIn moves
  /-- The collection is created first, and nothing else is sent before that
  has passed. -/
  created : ∀ before number call after,
    moves = before ++ .send number call :: after →
    (before = [] ∧ number = n ∧ call = s.creation) ∨
    ∃ reply, Move.receive n s.creation reply ∈ before ∧ Passes reply
  notCreated : ∀ number e, Move.receive number s.creation (.error e) ∈ moves →
    e.status? ≠ some conflict →
    moves = [.send n s.creation, .receive n s.creation (.error e)] ∧
      result = some (.error (.collectionNotCreated e))
  /-- The index is created next, if there is to be one. -/
  indexed : ∀ before number request after,
    moves = before ++ .send number (.createIndex request) :: after →
    s.createIndex = true ∧ number = n + 1 ∧
      request = .cosineGraph s.collection ∧
      callsIn before = [(n, s.creation)]
  notIndexed : ∀ number e, Move.receive number s.indexing (.error e) ∈ moves →
    e.status? ≠ some conflict →
    callsIn moves = [(n, s.creation), (n + 1, s.indexing)] ∧
      result = some (.error (.indexNotCreated e))
  /-- The transaction is opened when all that was to be prepared has passed. -/
  opened : ∀ before number name after,
    moves = before ++ .send number (.createTransaction name) :: after →
    name = s.collection ∧ s.Prepared n before
  /-- From there on there is a lawful upload, and behind it only fetches. -/
  uploaded : ∀ number call, (number, call) ∈ callsIn moves →
    call.isUpload = true →
    ∃ before ups after outcome, moves = before ++ (ups ++ after) ∧
      s.Prepared n before ∧
      Upload.Lawful s.collection corpus.records s.uploadOptions
        (n + (s.preparatory n).length) ups outcome ∧
      (∀ number call, (number, call) ∈ callsIn after →
        ∃ request, call = .fetch request) ∧
      (outcome = none → after = [] ∧ result = none) ∧
      ∀ e, outcome = some (.error e) → after = [] ∧
        result = some (.error (.uploadFailed e))
  /-- Something is fetched only behind the commit, and then the next of the
  sample, when all before it were there. -/
  fetched : ∀ before number request after,
    moves = before ++ .send number (.fetch request) :: after →
    (∃ k transaction, Move.receive k (.commit s.collection transaction)
      (.ok ()) ∈ before) ∧
    ∃ i expected, (sample corpus.records s.readback)[i]? = some expected ∧
      request = ⟨s.collection, expected.id⟩ ∧
      List.Forall₂ s.Restores ((sample corpus.records s.readback).take i)
        (fetchedIn before)
  /-- The first that was not is the last. -/
  misread : ∀ before number request reply after,
    moves = before ++ .receive number (.fetch request) reply :: after →
    ∃ i expected, (sample corpus.records s.readback)[i]? = some expected ∧
      request = ⟨s.collection, expected.id⟩ ∧
      List.Forall₂ s.Restores ((sample corpus.records s.readback).take i)
        (fetchedIn before) ∧
      (s.Restores expected (request, reply) ∨
        ∃ failure, s.Misread expected reply failure ∧ after = [] ∧
          result = some (.error failure))
  /-- The sample is as large as was asked for, and in the order of the
  corpus. -/
  sampled : (sample corpus.records s.readback).length
    = min s.readback corpus.size ∧
    (sample corpus.records s.readback).Sublist corpus.records
  /-- A load goes well if and only if the commit did, and all of the sample
  was there. -/
  loaded : (∃ loaded, result = some (.ok loaded)) ↔
    (∃ k transaction, Move.receive k (.commit s.collection transaction)
      (.ok ()) ∈ moves) ∧
    List.Forall₂ s.Restores (sample corpus.records s.readback)
      (fetchedIn moves)
  returned : ∀ loaded, result = some (.ok loaded) → loaded.corpus = corpus
  /-- Where nothing is prepared any more, no error is passed over, and no
  conflict is. -/
  refused : ∀ number call e, Move.receive number call (.error e) ∈ moves →
    (number, call) ∉ s.preparatory n → ∀ loaded, result ≠ some (.ok loaded)
  /-- And nothing else makes a load fail. -/
  failed : ∀ failure, result = some (.error failure) →
    LoadCause s corpus n moves failure

-- ========================================================= the judgements

section judgements

/-- A preparatory call is passed over exactly when it was accepted or was
refused as a conflict. -/
private theorem tolerated_eq_ok_iff {α : Type} {reply : Except CallError α} :
    tolerated reply = .ok () ↔ Passes reply := by
  unfold Passes
  cases reply with
  | ok answer => exact iff_of_true rfl fun _ h => nomatch h
  | error e =>
      show (if e.status? = some conflict then _ else _) = _ ↔ _
      split
      · next h =>
          refine iff_of_true rfl ?_
          rintro _ ⟨⟩
          exact h
      · next h => exact iff_of_false nofun fun hall => h (hall e rfl)

/-- What lets a load go on is a reply that passes. -/
theorem judge_ensuring_eq_ok_iff {call : Call} {failure : CallError → Failure}
    {reply : Reply call} :
    (Inquiry.ensuring call failure).judge reply = .ok () ↔ Passes reply := by
  rw [← tolerated_eq_ok_iff]
  show (tolerated reply).mapError failure = _ ↔ _
  cases tolerated reply with
  | ok done => exact iff_of_true rfl rfl
  | error e => exact iff_of_false nofun nofun

/-- What ends a load is a refusal that is no conflict, and it is what is
reported. -/
theorem judge_ensuring_eq_error_iff {call : Call}
    {failure : CallError → Failure} {reply : Reply call} {cause : Failure} :
    (Inquiry.ensuring call failure).judge reply = .error cause ↔
      ∃ e, reply = .error e ∧ e.status? ≠ some conflict ∧
        cause = failure e := by
  cases reply with
  | ok answer => exact iff_of_false nofun nofun
  | error e =>
      show (if e.status? = some conflict then _ else _ :
        Except CallError Unit).mapError failure = _ ↔ _
      split
      · next h =>
          refine iff_of_false nofun ?_
          rintro ⟨_, ⟨⟩, hstatus, -⟩
          exact hstatus h
      · next h =>
          constructor
          · rintro ⟨⟩
            exact ⟨e, rfl, h, rfl⟩
          · rintro ⟨_, ⟨⟩, -, rfl⟩
            rfl

end judgements

-- ======================================================= the preparations

section preparations

variable {s : Settings} {corpus : Corpus} {n : Nat} {moves : List Move}

/-- There are two preparations at most: the collection comes first and the
index second. -/
private theorem preparations_forms {i : Nat} {q : Inquiry Failure}
    (hq : s.preparations[i]? = some q) :
    (i = 0 ∧ q = .ensuring s.creation .collectionNotCreated) ∨
    (i = 1 ∧ s.createIndex = true ∧
      q = .ensuring s.indexing .indexNotCreated) := by
  unfold Settings.preparations at hq
  match i with
  | 0 => exact Or.inl ⟨rfl, (Option.some.inj hq).symm⟩
  | i + 1 =>
      rw [List.getElem?_cons_succ] at hq
      split at hq
      · next hindex =>
          cases i with
          | zero => exact Or.inr ⟨rfl, hindex, (Option.some.inj hq).symm⟩
          | succ i => cases hq
      · cases hq

private theorem preparatory_eq (s : Settings) (n : Nat) :
    s.preparatory n = Window.number n (s.preparations.map Inquiry.call) := by
  unfold Settings.preparatory Settings.preparations
  split
  · rfl
  · rfl

/-- There are as many preparatory calls as preparations, which gives the number
of the first call of the upload. -/
private theorem length_preparatory (s : Settings) (n : Nat) :
    (s.preparatory n).length = s.preparations.length := by
  unfold Settings.preparatory Settings.preparations
  split
  · rfl
  · rfl

private theorem mem_preparatory {i : Nat} {q : Inquiry Failure}
    (hq : s.preparations[i]? = some q) :
    (n + i, q.call) ∈ s.preparatory n := by
  unfold Settings.preparatory
  rcases preparations_forms hq with ⟨rfl, rfl⟩ | ⟨rfl, hindex, rfl⟩
  · exact List.mem_cons_self
  · rw [if_pos hindex]
    exact List.mem_cons_of_mem _ List.mem_cons_self

theorem exists_preparation {job : Nat × Call} (h : job ∈ s.preparatory n) :
    ∃ i call failure, s.preparations[i]? = some (.ensuring call failure) ∧
      job = (n + i, call) := by
  unfold Settings.preparatory at h
  rcases List.mem_cons.mp h with rfl | h
  · exact ⟨0, _, _, rfl, rfl⟩
  · split at h
    · next hindex =>
        refine ⟨1, _, .indexNotCreated, ?_, List.mem_singleton.mp h⟩
        unfold Settings.preparations
        rw [if_pos hindex]
        rfl
    · cases h

/-- When all preparations were accepted, the service is prepared: it was asked
each of them, and each was passed. -/
theorem Accepted.prepared (h : Accepted n s.preparations moves) :
    s.Prepared n moves := by
  refine ⟨h.callsIn_eq.trans (preparatory_eq s n).symm, fun job hjob => ?_⟩
  obtain ⟨i, call, failure, hq, rfl⟩ := exists_preparation hjob
  obtain ⟨reply, hmem, hjudge⟩ := h.answered hq
  exact ⟨reply, hmem, judge_ensuring_eq_ok_iff.mp hjudge⟩

/-- Whoever comes after the first has seen it pass. -/
theorem Accepted.created {i : Nat}
    (h : Accepted n (s.preparations.take (i + 1)) moves) :
    ∃ reply, Move.receive n s.creation reply ∈ moves ∧ Passes reply := by
  obtain ⟨reply, hmem, hjudge⟩ :=
    h.answered (i := 0) (q := .ensuring s.creation _) rfl
  exact ⟨reply, hmem, judge_ensuring_eq_ok_iff.mp hjudge⟩

/-- A reply to a call that prepares the upload: all before were accepted, and
what is not accepted is the last. -/
theorem Course.at_answer {result : Option (Except Failure Loaded)}
    {number : Nat} {call : Call} {reply : Reply call}
    (h : Course s corpus n moves result)
    (hmem : Move.receive number call reply ∈ moves)
    (hstage : call.stage? = some .preparation) :
    ∃ i q answer earlier rest, s.preparations[i]? = some q ∧
      Move.receive number call reply = .receive (n + i) q.call answer ∧
      Accepted n (s.preparations.take i) earlier ∧
      moves = earlier ++ .send (n + i) q.call :: .receive (n + i) q.call answer
        :: rest ∧
      ∀ failure, q.judge answer = .error failure → rest = [] ∧
        result = some (.error failure) := by
  obtain ⟨before, after, hsplit⟩ := List.append_of_mem hmem
  obtain ⟨prepared, inner, rest, outcome, hasked, hprepared, rfl, hlast⟩ :=
    h.at_preparation hsplit hstage
  obtain ⟨i, q, answer, earlier, hq, hmove, rfl, hearlier, hend⟩ :=
    hasked.before_receive hprepared
  refine ⟨i, q, answer, earlier, inner ++ rest, hq, hmove, hearlier, ?_,
    fun failure herror => ?_⟩
  · rw [hsplit, hmove, List.append_assoc]
    rfl
  · obtain ⟨rfl, houtcome⟩ := hend failure herror
    obtain ⟨rfl, hresult⟩ := hlast failure houtcome
    exact ⟨rfl, hresult⟩

/-- An upload that ends well has a commit that was accepted. What is fetched
afterwards rests on it. -/
theorem Uploaded.committed {m : Nat} {ups : List Move}
    {summary : Upload.Summary}
    (h : Uploaded s corpus m ups (some (.ok summary))) :
    ∃ k transaction, Move.receive k (.commit s.collection transaction) (.ok ())
      ∈ ups := by
  obtain ⟨seen, x, hpath, rfl, hresult⟩ := h
  exact (Upload.exists_ok_iff hpath).mp ⟨summary, hresult⟩

/-- A commit that went well behind the preparations is that of the upload. -/
theorem Uploaded.exists_ok {m k : Nat} {prepared ups : List Move}
    {transaction : TransactionId}
    {outcome : Option (Except CallError Upload.Summary)}
    (h : Uploaded s corpus m ups outcome)
    (hprepared : Accepted n s.preparations prepared)
    (hmem : Move.receive k (.commit s.collection transaction) (.ok ())
      ∈ prepared ++ ups) :
    ∃ summary, outcome = some (.ok summary) := by
  have hups :=
    (List.mem_append.mp hmem).resolve_left
      (hprepared.not_mem_preparations rfl nofun)
  obtain ⟨seen, x, hpath, rfl, rfl⟩ := h
  exact (Upload.exists_ok_iff hpath).mpr ⟨k, transaction, hups⟩

end preparations

-- ============================================================== the course

namespace Course

variable {s : Settings} {corpus : Corpus} {n : Nat} {moves : List Move}
  {result : Option (Except Failure Loaded)}

/-- Every call of a load is preparatory, belongs to the upload or fetches a
record. -/
theorem calls (h : Course s corpus n moves result) {number : Nat} {call : Call}
    (hmem : (number, call) ∈ callsIn moves) :
    (number, call) ∈ s.preparatory n ∨ call.isUpload = true ∨
      ∃ request, call = .fetch request := by
  have hsent := mem_callsIn.mp hmem
  rcases h.stage?_of_mem hsent with hstage | hstage | hstage
  · obtain ⟨before, after, hsplit⟩ := List.append_of_mem hsent
    obtain ⟨_, _, _, _, hasked, hprepared, -⟩ := h.at_preparation hsplit hstage
    obtain ⟨i, q, hq, rfl, rfl, -⟩ := hasked.before_send hprepared
    exact Or.inl (mem_preparatory hq)
  · exact Or.inr (Or.inl (Call.isUpload_of_stage? hstage))
  · exact Or.inr (Or.inr (Call.exists_fetch_of_stage? hstage))

/-- The collection is asked for first, and nothing else is sent before an
answer to it has passed. -/
theorem created (h : Course s corpus n moves result) {before after : List Move}
    {number : Nat} {call : Call}
    (hsplit : moves = before ++ .send number call :: after) :
    (before = [] ∧ number = n ∧ call = s.creation) ∨
    ∃ reply, Move.receive n s.creation reply ∈ before ∧ Passes reply := by
  have hpassed : ∀ {prepared : List Move}, Accepted n s.preparations prepared →
      ∃ reply, Move.receive n s.creation reply ∈ prepared ∧ Passes reply :=
    fun hprepared => hprepared.prepared.2 _ List.mem_cons_self
  have hsent : Move.send number call ∈ moves :=
    hsplit ▸ List.mem_append_right _ List.mem_cons_self
  rcases h.stage?_of_mem hsent with hstage | hstage | hstage
  · obtain ⟨_, _, _, _, hasked, hprepared, -⟩ := h.at_preparation hsplit hstage
    obtain ⟨i, q, hq, rfl, rfl, hbefore⟩ := hasked.before_send hprepared
    cases i with
    | zero =>
        rcases preparations_forms hq with ⟨-, rfl⟩ | ⟨hone, -⟩
        · exact Or.inl ⟨hbefore.eq_nil, rfl, rfl⟩
        · cases hone
    | succ i => exact Or.inr hbefore.created
  · obtain ⟨prepared, earlier, _, _, _, _, rfl, hprepared, -⟩ :=
      h.at_upload hsplit hstage
    obtain ⟨reply, hmem, hpasses⟩ := hpassed hprepared
    exact Or.inr ⟨reply, List.mem_append_left _ hmem, hpasses⟩
  · obtain ⟨prepared, _, _, _, _, _, _, rfl, hprepared, -⟩ :=
      h.at_readBack hsplit hstage
    obtain ⟨reply, hmem, hpasses⟩ := hpassed hprepared
    exact Or.inr ⟨reply, List.mem_append_left _ hmem, hpasses⟩

/-- When the collection is refused other than by a conflict, the load ends
there with that refusal. -/
private theorem notCreated (h : Course s corpus n moves result) {number : Nat}
    {e : CallError} (hmem : Move.receive number s.creation (.error e) ∈ moves)
    (hstatus : e.status? ≠ some conflict) :
    moves = [.send n s.creation, .receive n s.creation (.error e)] ∧
      result = some (.error (.collectionNotCreated e)) := by
  obtain ⟨i, q, answer, earlier, rest, hq, hmove, hearlier, rfl, hend⟩ :=
    h.at_answer hmem rfl
  obtain ⟨-, hcall, hanswer⟩ := Move.receive.inj hmove
  rcases preparations_forms hq with ⟨rfl, rfl⟩ | ⟨-, -, rfl⟩
  · obtain rfl := eq_of_heq hanswer
    obtain ⟨rfl, hresult⟩ :=
      hend _ (judge_ensuring_eq_error_iff.mpr ⟨e, rfl, hstatus, rfl⟩)
    obtain rfl := hearlier.eq_nil
    exact ⟨rfl, hresult⟩
  · cases hcall

/-- The index is asked for once, right after the collection, and only if the
settings say so. -/
private theorem indexed (h : Course s corpus n moves result)
    {before after : List Move} {number : Nat} {request : IndexRequest}
    (hsplit : moves = before ++ .send number (.createIndex request) :: after) :
    s.createIndex = true ∧ number = n + 1 ∧
      request = .cosineGraph s.collection ∧
      callsIn before = [(n, s.creation)] := by
  obtain ⟨_, _, _, _, hasked, hprepared, -⟩ := h.at_preparation hsplit rfl
  obtain ⟨i, q, hq, rfl, hcall, hbefore⟩ := hasked.before_send hprepared
  rcases preparations_forms hq with ⟨-, rfl⟩ | ⟨rfl, hindex, rfl⟩
  · cases hcall
  · exact ⟨hindex, rfl, Call.createIndex.inj hcall, hbefore.callsIn_eq⟩

/-- When the index is refused other than by a conflict, the load ends there
with that refusal. -/
private theorem notIndexed (h : Course s corpus n moves result) {number : Nat}
    {e : CallError} (hmem : Move.receive number s.indexing (.error e) ∈ moves)
    (hstatus : e.status? ≠ some conflict) :
    callsIn moves = [(n, s.creation), (n + 1, s.indexing)] ∧
      result = some (.error (.indexNotCreated e)) := by
  obtain ⟨i, q, answer, earlier, rest, hq, hmove, hearlier, rfl, hend⟩ :=
    h.at_answer hmem rfl
  obtain ⟨-, hcall, hanswer⟩ := Move.receive.inj hmove
  rcases preparations_forms hq with ⟨-, rfl⟩ | ⟨rfl, -, rfl⟩
  · cases hcall
  · obtain rfl := eq_of_heq hanswer
    obtain ⟨rfl, hresult⟩ :=
      hend _ (judge_ensuring_eq_error_iff.mpr ⟨e, rfl, hstatus, rfl⟩)
    refine ⟨?_, hresult⟩
    rw [callsIn_append, hearlier.callsIn_eq]
    rfl

/-- A transaction is opened for the collection of the settings, and only after
all preparations. -/
theorem opened (h : Course s corpus n moves result) {before after : List Move}
    {number : Nat} {name : String}
    (hsplit : moves = before ++ .send number (.createTransaction name)
      :: after) :
    name = s.collection ∧ s.Prepared n before := by
  obtain ⟨prepared, earlier, ups, _, _, _, rfl, hprepared,
      ⟨seen, x, hpath, rfl, -⟩, hups, -⟩ :=
    h.at_upload hsplit rfl
  obtain ⟨rfl, -, rfl⟩ := Upload.opens_first hpath hups
  rw [List.append_nil]
  exact ⟨rfl, hprepared.prepared⟩

/-- A call of the upload stands in a lawful upload, which comes after the
preparations. Nothing but fetches comes after it, and nothing at all if it has
failed. -/
theorem uploaded (h : Course s corpus n moves result) {number : Nat}
    {call : Call} (hmem : (number, call) ∈ callsIn moves)
    (hcall : call.isUpload = true) :
    ∃ before ups after outcome, moves = before ++ (ups ++ after) ∧
      s.Prepared n before ∧
      Upload.Lawful s.collection corpus.records s.uploadOptions
        (n + (s.preparatory n).length) ups outcome ∧
      (∀ number call, (number, call) ∈ callsIn after →
        ∃ request, call = .fetch request) ∧
      (outcome = none → after = [] ∧ result = none) ∧
      ∀ e, outcome = some (.error e) → after = [] ∧
        result = some (.error (.uploadFailed e)) := by
  obtain ⟨before, after, hsplit⟩ := List.append_of_mem (mem_callsIn.mp hmem)
  obtain ⟨prepared, earlier, ups, inner, rest, outcome, rfl, hprepared,
    ⟨seen, x, hpath, rfl, rfl⟩,
    hups, rfl, hrest, hnone, herror⟩ :=
      h.at_upload hsplit (Call.stage?_of_isUpload hcall)
  refine ⟨prepared, talkIn seen, rest, x.result?, ?_, hprepared.prepared, ?_,
    ?_, hnone, herror⟩
  · rw [hsplit, hups]
    simp only [List.append_assoc, List.cons_append]
  · rw [length_preparatory]
    exact Upload.lawful_of_path hpath
  · exact fun number call hmem =>
      Call.exists_fetch_of_stage? (hrest _ (mem_callsIn.mp hmem))

/-- What is fetched, and what comes back, in the terms of the sample. The
earlier stages fetch nothing. -/
theorem fetchedIn_back {prepared ups back : List Move}
    {summary : Upload.Summary} (hprepared : Accepted n s.preparations prepared)
    (hups : Uploaded s corpus (n + s.preparations.length) ups
      (some (.ok summary))) :
    fetchedIn (prepared ++ (ups ++ back)) = fetchedIn back := by
  have hfirst : fetchedIn prepared = [] :=
    fetchedIn_eq_nil fun move hmem => by
      rw [hprepared.stage?_preparations hmem]; simp
  have hsecond : fetchedIn ups = [] :=
    fetchedIn_eq_nil fun move hmem => by rw [hups.stage? hmem]; simp
  rw [fetchedIn_append, fetchedIn_append, hfirst, hsecond, List.nil_append,
    List.nil_append]

/-- A fetch comes after an accepted commit. It asks for the next of the sampled
records, and the ones before it were all restored. -/
private theorem fetched (h : Course s corpus n moves result)
    {before after : List Move} {number : Nat} {request : FetchRequest}
    (hsplit : moves = before ++ .send number (.fetch request) :: after) :
    (∃ k transaction, Move.receive k (.commit s.collection transaction)
      (.ok ()) ∈ before) ∧
    ∃ i expected, (sample corpus.records s.readback)[i]? = some expected ∧
      request = ⟨s.collection, expected.id⟩ ∧
      List.Forall₂ s.Restores ((sample corpus.records s.readback).take i)
        (fetchedIn before) := by
  obtain ⟨prepared, ups, earlier, back, summary, k, _, rfl, hprepared, hups,
      hback, hsent, -⟩ :=
    h.at_readBack hsplit rfl
  constructor
  · obtain ⟨number, transaction, hcommit⟩ := hups.committed
    exact ⟨number, transaction,
      List.mem_append_right _ (List.mem_append_left _ hcommit)⟩
  · obtain ⟨i, q, hq, -, hcall, hearlier⟩ := hback.before_send hsent
    rw [List.getElem?_map] at hq
    obtain ⟨expected, hexpected, rfl⟩ := Option.map_eq_some_iff.mp hq
    rw [← List.map_take] at hearlier
    rw [fetchedIn_back hprepared hups]
    exact ⟨i, expected, hexpected, Call.fetch.inj hcall, hearlier.restores⟩

/-- An answer to a fetch restores its record, or it ends the load with the
failure that tells how the two differ. -/
private theorem misread (h : Course s corpus n moves result)
    {before after : List Move} {number : Nat} {request : FetchRequest}
    {reply : Except CallError Record}
    (hsplit : moves = before ++ .receive number (.fetch request) reply
      :: after) :
    ∃ i expected, (sample corpus.records s.readback)[i]? = some expected ∧
      request = ⟨s.collection, expected.id⟩ ∧
      List.Forall₂ s.Restores ((sample corpus.records s.readback).take i)
        (fetchedIn before) ∧
      (s.Restores expected (request, reply) ∨
        ∃ failure, s.Misread expected reply failure ∧ after = [] ∧
          result = some (.error failure)) := by
  obtain ⟨prepared, ups, _, back, summary, k, outcome, rfl, hprepared, hups,
    hback, hreceived, rfl⟩ := h.at_readBack hsplit rfl
  obtain ⟨i, q, answer, earlier, hq, hmove, rfl, hearlier, hend⟩ :=
    hback.before_receive hreceived
  rw [List.getElem?_map] at hq
  obtain ⟨expected, hexpected, rfl⟩ := Option.map_eq_some_iff.mp hq
  obtain ⟨-, hcall, hanswer⟩ := Move.receive.inj hmove
  obtain rfl := Call.fetch.inj hcall
  obtain rfl := eq_of_heq hanswer
  rw [← List.map_take] at hearlier
  refine ⟨i, expected, hexpected, rfl, ?_, ?_⟩
  · rw [fetchedIn_back hprepared hups, fetchedIn_append]
    exact (List.append_nil _).symm ▸ hearlier.restores
  · rcases judgeStored_cases s expected reply with ⟨-, hrestores⟩ |
      ⟨failure, herror, hmisread⟩
    · exact Or.inl hrestores
    · obtain ⟨rfl, houtcome⟩ := hend failure herror
      refine Or.inr ⟨failure, hmisread, rfl, ?_⟩
      rw [houtcome]
      rfl

/-- A load does not end well once a call after the preparations was refused. -/
theorem refused (h : Course s corpus n moves result) {number : Nat}
    {call : Call} {e : CallError}
    (hmem : Move.receive number call (.error e) ∈ moves)
    (hlater : (number, call) ∉ s.preparatory n) (loaded : Loaded) :
    result ≠ some (.ok loaded) := by
  obtain ⟨before, after, hsplit⟩ := List.append_of_mem hmem
  rcases h.stage?_of_mem hmem with hstage | hstage | hstage
  · obtain ⟨i, q, answer, _, _, hq, hmove, -⟩ := h.at_answer hmem hstage
    obtain ⟨rfl, rfl, -⟩ := Move.receive.inj hmove
    exact absurd (mem_preparatory hq) hlater
  · obtain ⟨_, _, ups, _, _, _, -, -, ⟨seen, x, hpath, rfl, rfl⟩, hups, -, -,
        hnone, herror⟩ :=
      h.at_upload hsplit hstage
    have hreceived : Move.receive number call (.error e) ∈ talkIn seen :=
      hups ▸ List.mem_append_right _ List.mem_cons_self
    match houtcome : x.result? with
    | none => simp [(hnone houtcome).2]
    | some (.error cause) => simp [(herror cause houtcome).2]
    | some (.ok summary) =>
        exact absurd houtcome (Upload.ne_ok_of_refusal hpath hreceived summary)
  · obtain ⟨request, rfl⟩ := Call.exists_fetch_of_stage? hstage
    obtain ⟨i, expected, -, -, -,
        ⟨-, stored, hstored, -⟩ | ⟨failure, -, -, rfl⟩⟩ :=
      h.misread hsplit
    · cases hstored
    · simp

/-- A load succeeds exactly if a commit was accepted and all sampled records
were restored. Both are read off what was said, whatever the failures in
between might be. -/
theorem exists_ok_iff (h : Course s corpus n moves result) :
    (∃ loaded, result = some (.ok loaded)) ↔
    (∃ k transaction, Move.receive k (.commit s.collection transaction)
      (.ok ()) ∈ moves) ∧
    List.Forall₂ s.Restores (sample corpus.records s.readback)
      (fetchedIn moves) := by
  constructor
  · rintro ⟨loaded, rfl⟩
    obtain ⟨prepared, ups, back, k, rfl, hprepared, hups, hback, -⟩ := h.of_ok
    obtain ⟨number, transaction, hcommit⟩ := hups.committed
    rw [fetchedIn_back hprepared hups]
    exact ⟨⟨number, transaction,
      List.mem_append_right _ (List.mem_append_left _ hcommit)⟩,
      hback.restores⟩
  · rintro ⟨⟨number, transaction, hcommit⟩, hall⟩
    cases h with
    | preparing h => exact absurd hcommit (h.not_mem_preparations rfl nofun)
    | unprepared failure h =>
        exact absurd hcommit (h.not_mem_preparations rfl nofun)
    | uploading hprepared hups =>
        obtain ⟨summary, houtcome⟩ := hups.exists_ok hprepared hcommit
        cases houtcome
    | notUploaded e hprepared hups =>
        obtain ⟨summary, houtcome⟩ := hups.exists_ok hprepared hcommit
        cases houtcome
    | reading summary k hprepared hups hback =>
        rw [fetchedIn_back hprepared hups] at hall
        rw [hback.accepted_of_restores hall]
        exact ⟨_, rfl⟩

/-- A failed load has a cause in what was seen, which its failure names. -/
theorem failed (h : Course s corpus n moves result) {failure : Failure}
    (hresult : result = some (.error failure)) :
    LoadCause s corpus n moves failure := by
  cases h with
  | preparing h => cases hresult
  | unprepared failure h =>
      cases hresult
      obtain ⟨i, q, reply, hq, hmem, hjudge⟩ := h.exists_refused
      rcases preparations_forms hq with ⟨rfl, rfl⟩ | ⟨rfl, -, rfl⟩
      · obtain ⟨e, rfl, hstatus, rfl⟩ := judge_ensuring_eq_error_iff.mp hjudge
        exact .creation e hmem hstatus
      · obtain ⟨e, rfl, hstatus, rfl⟩ := judge_ensuring_eq_error_iff.mp hjudge
        exact .indexing e hmem hstatus
  | uploading hprepared hups => cases hresult
  | notUploaded e hprepared hups =>
      cases hresult
      refine .upload _ _ e rfl hprepared.prepared ?_
      obtain ⟨seen, x, hpath, rfl, houtcome⟩ := hups
      rw [length_preparatory, ← houtcome]
      exact Upload.lawful_of_path hpath
  | @reading _ ups back outcome summary k hprepared hups hback =>
      match outcome with
      | some (.ok ()) => cases hresult
      | none => cases hresult
      | some (.error failure) =>
          cases hresult
          obtain ⟨i, q, reply, hq, hmem, hjudge⟩ := hback.exists_refused
          rw [List.getElem?_map] at hq
          obtain ⟨expected, hexpected, rfl⟩ := Option.map_eq_some_iff.mp hq
          refine .readBack (k + i) expected reply failure
            (List.mem_append_right _ (List.mem_append_right _ hmem))
            (List.mem_of_getElem? hexpected) ?_
          rcases judgeStored_cases s expected reply with ⟨hok, -⟩ |
            ⟨other, herror, hmisread⟩
          · cases hok.symm.trans hjudge
          · cases herror.symm.trans hjudge
            exact hmisread

end Course

-- ================================================================== loads

section loads

variable {s : Settings} {read : Storage.Reader} {n : Nat} {moves : List Move}
  {x : Exchange (Except Failure Loaded)}

/-- There is a corpus if and only if there are records and they are a valid
one. -/
theorem exists_corpus_iff :
    (∃ corpus, s.corpus read = .ok corpus) ↔
      ∃ records, s.corpusRecords read = .ok records ∧
        Corpus.Obeys s.dimension records := by
  unfold Settings.corpus
  cases hrecords : s.corpusRecords read with
  | error e =>
      exact iff_of_false (fun ⟨_, h⟩ => nomatch h) (fun ⟨_, h, _⟩ => nomatch h)
  | ok records =>
      dsimp only
      cases hmake : Corpus.make? s.dimension records with
      | error fault =>
          refine iff_of_false (fun ⟨_, h⟩ => nomatch h) ?_
          rintro ⟨_, ⟨⟩, hobeys⟩
          obtain ⟨corpus, hok⟩ := Corpus.exists_make?_iff.mpr hobeys
          cases hok.symm.trans hmake
      | ok corpus =>
          exact iff_of_true ⟨corpus, rfl⟩
            ⟨records, rfl, Corpus.exists_make?_iff.mp ⟨corpus, hmake⟩⟩

theorem records_of_corpus {corpus : Corpus} (h : s.corpus read = .ok corpus) :
    s.corpusRecords read = .ok corpus.records ∧
      corpus.dimension = s.dimension := by
  unfold Settings.corpus at h
  cases hrecords : s.corpusRecords read with
  | error e =>
      rw [hrecords] at h
      cases h
  | ok records =>
      rw [hrecords] at h
      dsimp only at h
      cases hmake : Corpus.make? s.dimension records with
      | error fault =>
          rw [hmake] at h
          cases h
      | ok made =>
          rw [hmake] at h
          cases h
          obtain ⟨hmade, hdimension⟩ := Corpus.records_of_make? hmake
          exact ⟨by rw [hmade], hdimension⟩

/-- Every path of a load is lawful: the course that it follows has each of the
properties. -/
private theorem lawfulLoad_of_path {corpus : Corpus}
    (h : Exchange.Path ⟨.ready (loadCorpus s corpus), n⟩ moves x) :
    LawfulLoad s corpus n (talkIn moves) x.result? where
  calls _ _ hmem := (Exchange.path_loadCorpus h).calls hmem
  answered _ _ _ hmem := Exchange.mem_callsIn_of_receive h hmem
  created _ _ _ _ hsplit := (Exchange.path_loadCorpus h).created hsplit
  notCreated _ _ hmem hstatus :=
    (Exchange.path_loadCorpus h).notCreated hmem hstatus
  indexed _ _ _ _ hsplit := (Exchange.path_loadCorpus h).indexed hsplit
  notIndexed _ _ hmem hstatus :=
    (Exchange.path_loadCorpus h).notIndexed hmem hstatus
  opened _ _ _ _ hsplit := (Exchange.path_loadCorpus h).opened hsplit
  uploaded _ _ hmem hcall := (Exchange.path_loadCorpus h).uploaded hmem hcall
  fetched _ _ _ _ hsplit := (Exchange.path_loadCorpus h).fetched hsplit
  misread _ _ _ _ _ hsplit := (Exchange.path_loadCorpus h).misread hsplit
  sampled := ⟨length_sample _ _, sample_sublist _ _⟩
  loaded := (Exchange.path_loadCorpus h).exists_ok_iff
  returned _ hresult :=
    have ⟨_, _, _, _, _, _, _, _, hcorpus⟩ :=
      (hresult ▸ Exchange.path_loadCorpus h).of_ok
    hcorpus
  refused _ _ _ hmem hlater := (Exchange.path_loadCorpus h).refused hmem hlater
  failed _ hresult := (Exchange.path_loadCorpus h).failed hresult

/-- At any moment of any load: nothing was sent unless there are records that
are a valid corpus of the configured dimension. With them the load keeps to
its order, whatever the service does, and it returns. -/
theorem load_lawful (h : Exchange.Path ⟨.ready (load s read), n⟩ moves x) :
    ((∃ corpus, s.corpus read = .ok corpus) ↔
      ∃ records, s.corpusRecords read = .ok records ∧
        Corpus.Obeys s.dimension records) ∧
    (∀ failure, s.corpus read = .error failure →
      moves = [] ∧ x.result? = some (.error failure)) ∧
    (∀ corpus, s.corpus read = .ok corpus →
      s.corpusRecords read = .ok corpus.records ∧
      corpus.dimension = s.dimension ∧
      LawfulLoad s corpus n (talkIn moves) x.result?) ∧
    x.Returns := by
  refine ⟨exists_corpus_iff, fun failure hcorpus => ?_,
    fun corpus hcorpus => ?_, (Exchange.returns_ready _ n).path h⟩
  · unfold load at h
    rw [hcorpus] at h
    obtain ⟨rfl, rfl⟩ := Exchange.eq_of_path_done h
    exact ⟨rfl, rfl⟩
  · obtain ⟨hrecords, hdimension⟩ := records_of_corpus hcorpus
    unfold load at h
    rw [hcorpus] at h
    exact ⟨hrecords, hdimension, lawfulLoad_of_path h⟩

-- ---------------------------------------------------------------- a load

/-- The service has it all already, as it says. -/
def conflicting (action : String) : CallError :=
  .rejected action conflict "exists"

/-- The collection and the index are there already, which is passed over; a
transaction is there already, which is not. -/
def conflicts : List Move :=
  [.note (.corpusSize 3),
    .send 0 threeSettings.creation,
    .receive 0 threeSettings.creation
      (.error (conflicting "create collection")),
    .send 1 threeSettings.indexing,
    .receive 1 threeSettings.indexing (.error (conflicting "create index")),
    .send 2 (.createTransaction threeSettings.collection),
    .receive 2 (.createTransaction threeSettings.collection)
      (.error (conflicting "create transaction"))]

/-- The collection and the index are there already and both are passed over.
The upload is then refused, which a load does not pass over. -/
private theorem path_conflicts :
    Exchange.Path ⟨.ready (load threeSettings threeReader), 0⟩ conflicts
      ⟨.ready
        (.done (.error (.uploadFailed (conflicting "create transaction")))),
        3⟩ := by
  unfold load
  rw [corpus_threeSettings]
  refine .step (.note (.corpusSize 3) _ 0) ?_
  refine .step (.ask threeSettings.creation _ 0) ?_
  refine .step
    (.answer 0 threeSettings.creation _ 1
      (.error (conflicting "create collection"))) ?_
  refine .step (.ask threeSettings.indexing _ 1) ?_
  refine .step
    (.answer 1 threeSettings.indexing _ 2
      (.error (conflicting "create index"))) ?_
  refine .step (.ask (.createTransaction threeSettings.collection) _ 2) ?_
  exact .single (.answer 2 (.createTransaction threeSettings.collection) _ 3
    (.error (conflicting "create transaction")))

/-- A conflict is passed over when the collection is created and when the index
is, and ends the load when a transaction is opened. -/
theorem load_lawful_conflicts :
    ∃ x,
      Exchange.Path ⟨.ready (load threeSettings threeReader), 0⟩
        conflicts x ∧
      x.result?
        = some (.error (.uploadFailed (conflicting "create transaction"))) ∧
      LawfulLoad threeSettings threeVectors 0 (talkIn conflicts) x.result? ∧
      x.Returns := by
  obtain ⟨-, -, hlawful, hreturns⟩ := load_lawful path_conflicts
  exact ⟨_, path_conflicts, rfl, (hlawful _ corpus_threeSettings).2.2,
    hreturns⟩

end loads

end KnnOracle
