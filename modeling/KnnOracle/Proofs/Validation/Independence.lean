/-
No query has any influence on the outcome of another.

`Validator.validateAll` asks the service and judges the replies; when the
oracle searches it does not say. `Validator.Races` says it of each query
separately. The two can come to the same outcomes, after the same talk with
the service (`races_iff`): every race is a way to hold the conversation,
because a query that has both answers has its reply; and every way to hold
the conversation is a race in which the oracle is done at once.

`validateAll_independent` says what the outcomes are. That one query, or
one reply, changes one outcome only can then be read off.
-/
import Mathlib.Data.List.Basic
import KnnOracle.Proofs.Exchange.Paths
import KnnOracle.Proofs.Validation.Racing

namespace KnnOracle

namespace Trials

-- ================================================= the service's side of it

/-- The requests that are not replied to, with the numbers of their
queries. -/
def unheard (v : Validator) (first : Nat) :
    List Trial → List (Nat × SearchRequest)
  | [] => []
  | t :: rest =>
      if t.reply?.isNone then (first, v.searchOf t.query)
        :: unheard v (first + 1) rest
      else unheard v (first + 1) rest

/-- What the service can know of trials: the searches that are asked of it,
and the replies. -/
def searching (v : Validator) (ts : Trials) : Searching :=
  { first := 0
    window :=
      { width := v.concurrency
        waiting := Window.number ts.begun.length (ts.waiting.map v.searchOf)
        flying := unheard v 0 ts.begun }
    replies :=
      ts.begun.map Trial.reply?
        ++ (ts.waiting.map v.searchOf).map fun _ => none }

variable {v : Validator} {queries : List Record} {moves rest : List Move}
  {ts ts' : Trials}
  {waiting : List Record} {begun : List Trial} {query : Record}
  {first number i : Nat}
  {t : Trial} {request : SearchRequest}

/-- The requests that are unheard are those of the trials without a reply, each
under its number. -/
private theorem mem_unheard :
    (number, request) ∈ unheard v first begun ↔ ∃ i t, number = first + i ∧
      begun[i]? = some t ∧ t.reply? = none ∧ request = v.searchOf t.query := by
  induction begun generalizing first with
  | nil => simp [unheard]
  | cons t rest ih =>
      constructor
      · intro hmem
        have hlater : (number, request) ∈ unheard v (first + 1) rest → ∃ i u,
            number = first + i ∧ (t :: rest)[i]? = some u ∧ u.reply? = none ∧
              request = v.searchOf u.query := by
          intro hmem
          obtain ⟨i, u, hnumber, hu, hreply, hrequest⟩ := ih.mp hmem
          exact ⟨i + 1, u, by omega, hu, hreply, hrequest⟩
        unfold unheard at hmem
        split at hmem
        · next hnone =>
            rcases List.mem_cons.mp hmem with heq | hmem
            · cases heq
              exact ⟨0, t, rfl, rfl, Option.isNone_iff_eq_none.mp hnone, rfl⟩
            · exact hlater hmem
        · exact hlater hmem
      · rintro ⟨i, u, rfl, hu, hreply, rfl⟩
        unfold unheard
        cases i with
        | zero =>
            cases hu
            rw [hreply, Option.isNone_none, if_pos rfl]
            exact List.mem_cons_self ..
        | succ i =>
            have hmem :=
              ih.mpr ⟨i, u, show first + (i + 1) = first + 1 + i by omega, hu,
              hreply, rfl⟩
            split
            · exact List.mem_cons_of_mem _ hmem
            · exact hmem

private theorem unheard_concat (first : Nat) (begun : List Trial)
    (query : Record) (found? : Option (Except Fault (List Neighbor))) :
    unheard v first (begun ++ [⟨query, found?, none⟩])
      = unheard v first begun
        ++ [(first + begun.length, v.searchOf query)] := by
  induction begun generalizing first with
  | nil => rfl
  | cons t rest ih =>
      have hplace : first + 1 + rest.length = first + (rest.length + 1) := by
        omega
      simp only [List.cons_append, unheard, ih, List.length_cons, hplace]
      split <;> rfl

/-- A search of the oracle does not show in what is asked of the service. -/
theorem unheard_set_found (ht : begun[i]? = some t)
    (found? : Option (Except Fault (List Neighbor))) :
    unheard v first (begun.set i { t with found? })
      = unheard v first begun := by
  induction begun generalizing i first with
  | nil => rfl
  | cons other rest ih =>
      cases i with
      | zero =>
          cases ht
          rfl
      | succ i => rw [List.set_cons_succ, unheard, unheard, ih ht]

/-- A reply takes its request away. -/
theorem unheard_set_reply (ht : begun[i]? = some t) (hopen : t.reply? = none)
    (reply : SearchReply) :
    unheard v first (begun.set i { t with reply? := some reply })
      = (unheard v first begun).filter fun job => job.1 != first + i := by
  induction begun generalizing i first with
  | nil => cases ht
  | cons other rest ih =>
      cases i with
      | zero =>
          cases ht
          have hkept : ∀ job ∈ unheard v (first + 1) rest,
              (job.1 != first + 0) = true := by
            rintro ⟨number, request⟩ hmem
            obtain ⟨i, u, rfl, -⟩ := mem_unheard.mp hmem
            exact bne_iff_ne.mpr (by show first + 1 + i ≠ first + 0; omega)
          rw [List.set_cons_zero, unheard, unheard, hopen, Option.isNone_none,
            if_pos rfl, List.filter_cons_of_neg (by simp),
            List.filter_eq_self.mpr hkept]
          rfl
      | succ i =>
          have hplace : first + 1 + i = first + (i + 1) := by omega
          have hne : (first != first + (i + 1)) = true :=
            bne_iff_ne.mpr (by omega)
          rw [List.set_cons_succ, unheard, unheard, ih ht, hplace]
          split
          · simp only [List.filter_cons, hne, if_true]
          · rfl

/-- Who has no reply takes up room, so trials never ask for more than the
window holds. -/
theorem length_unheard_le (v : Validator) (first : Nat) (begun : List Trial) :
    (unheard v first begun).length ≤ begun.countP Trial.isOpen := by
  induction begun generalizing first with
  | nil => exact Nat.le_refl _
  | cons t rest ih =>
      have := ih (first + 1)
      rw [unheard, List.countP_cons]
      split
      · next hnone =>
          rw [if_pos (by rw [Trial.isOpen, hnone, Bool.or_true]),
            List.length_cons]
          omega
      · omega

/-- Nobody else takes up room, where the oracle is done. -/
theorem countP_isOpen_eq (first : Nat) (h : ∀ t ∈ begun, t.found?.isSome) :
    begun.countP Trial.isOpen = (unheard v first begun).length := by
  induction begun generalizing first with
  | nil => rfl
  | cons t rest ih =>
      obtain ⟨hsome, hrest⟩ := List.forall_mem_cons.mp h
      have hopen : t.isOpen = t.reply?.isNone := by
        rw [Trial.isOpen, ← Option.not_isSome, hsome, Bool.not_true,
          Bool.false_or]
      rw [List.countP_cons, ih (first + 1) hrest, hopen, unheard]
      split <;> rfl

-- ========================================================= step for step

/-- Where there is room, the next request can be sent. -/
theorem start?_searching (query : Record) (waiting : List Record)
    (found? : Option (Except Fault (List Neighbor)))
    (hroom : (unheard v 0 begun).length < max 1 v.concurrency) :
    (searching v ⟨query :: waiting, begun⟩).start?
      = some ((begun.length, v.searchOf query),
          searching v ⟨waiting, begun ++ [⟨query, found?, none⟩]⟩) := by
  have hwindow : (searching v ⟨query :: waiting, begun⟩).window.start?
      = some ((begun.length, v.searchOf query),
          (searching v
            ⟨waiting, begun ++ [⟨query, found?, none⟩]⟩).window) := by
    simp only [searching, Window.start?, List.map_cons, Window.number]
    rw [if_pos hroom, unheard_concat, Nat.zero_add, List.length_append,
      List.length_singleton]
  rw [Searching.start?, hwindow, Option.map_some]
  simp [searching]

/-- What is sent is asked for a query that waits, and there is room for it. -/
theorem room_of_start? {s : Searching}
    (h : (searching v ts).start? = some ((number, request), s)) :
    ∃ query rest, ts.waiting = query :: rest ∧
      (unheard v 0 ts.begun).length < max 1 v.concurrency := by
  obtain ⟨⟨job, window⟩, hwindow, -⟩ := Option.map_eq_some_iff.mp h
  obtain ⟨hwaiting, hflying, -, hroom⟩ := Window.start?_eq_some hwindow
  cases hw : ts.waiting with
  | nil =>
      rw [searching, hw] at hwaiting
      cases hwaiting
  | cons query rest =>
      refine ⟨query, rest, rfl, ?_⟩
      rw [hflying, List.length_append, List.length_singleton] at hroom
      exact hroom

private theorem searching_find (ht : begun[i]? = some t)
    (found? : Option (Except Fault (List Neighbor))) :
    searching v ⟨waiting, begun.set i { t with found? }⟩
      = searching v ⟨waiting, begun⟩ := by
  obtain ⟨hlt, rfl⟩ := List.getElem?_eq_some_iff.mp ht
  have hreplies : (begun.set i { begun[i] with found? }).map Trial.reply?
      = begun.map Trial.reply? := by
    rw [List.map_set]
    show (begun.map Trial.reply?).set i (Trial.reply? begun[i]) = _
    rw [← List.map_set, List.set_getElem_self]
  simp only [searching]
  rw [unheard_set_found ht, List.length_set, hreplies]

private theorem searching_hear (ht : begun[i]? = some t)
    (hopen : t.reply? = none) (reply : SearchReply) :
    searching v ⟨waiting, begun.set i { t with reply? := some reply }⟩
      = (searching v ⟨waiting, begun⟩).receive i reply := by
  obtain ⟨hlt, -⟩ := List.getElem?_eq_some_iff.mp ht
  simp only [searching, Searching.receive, Window.finish]
  rw [unheard_set_reply ht hopen, List.length_set, List.map_set, Nat.sub_zero,
    Nat.zero_add, List.set_append_left _ _ (by rwa [List.length_map])]

variable {α : Type} {next : List SearchReply → Conversation α} {n : Nat}

/-- A step of the trials is a step of the conversation, or shows nothing. -/
theorem Step.exchange (h : Step v ts moves ts') :
    Exchange.Path ⟨.searching (ts.searching v) next, n⟩ moves
      ⟨.searching (ts'.searching v) next, n⟩ := by
  cases h with
  | start query waiting begun hroom =>
      have hroom := Nat.lt_of_le_of_lt (length_unheard_le v 0 begun) hroom
      exact .single
        (.sendSearch _ _ _ _ _ _ (start?_searching query waiting none hroom))
  | find waiting begun i t ht hopen =>
      rw [searching_find ht]
      exact .refl _
  | hear waiting begun i t ht hopen reply =>
      rw [searching_hear ht hopen]
      refine .single (.answerSearch _ _ _ _ _ ?_ reply)
      exact mem_unheard.mpr ⟨i, t, (Nat.zero_add i).symm, ht, hopen, rfl⟩

/-- Whatever the trials do, the exchange allows: their path is one of its
paths. This carries what is known of trials over to what goes over the wire. -/
theorem Path.exchange (h : Path v ts moves ts') :
    Exchange.Path ⟨.searching (ts.searching v) next, n⟩ moves
      ⟨.searching (ts'.searching v) next, n⟩ := by
  induction h with
  | refl ts => exact .refl _
  | step first others ih => exact first.exchange.trans ih

/-- A query that is begun and found at once, which is how the program goes
about it. So what the exchange does some trials do. -/
theorem path_start (hroom : begun.countP Trial.isOpen < max 1 v.concurrency) :
    Path v ⟨query :: waiting, begun⟩
      [.send begun.length (.search (v.searchOf query))]
      ⟨waiting,
        begun ++ [⟨query, some (v.corpus.search query v.k), none⟩]⟩ := by
  have hlast : (begun ++ [⟨query, none, none⟩])[begun.length]?
      = some ⟨query, none, none⟩ :=
    List.getElem?_concat_length
  have hfind :=
    Step.find (v := v) waiting (begun ++ [⟨query, none, none⟩]) begun.length
    ⟨query, none, none⟩ hlast rfl
  rw [List.set_append_right _ _ (Nat.le_refl _), Nat.sub_self] at hfind
  exact .step (.start query waiting begun hroom) (.step hfind (.refl _))

/-- A conversation that has all its replies had them in a race, in which
the oracle was done at once. -/
theorem path_of_exchange (ts : Trials) {x : Exchange α} {result : α}
    (h : Exchange.Path ⟨.searching (ts.searching v) next, n⟩ moves x)
    (hfound : ∀ t ∈ ts.begun, t.found?.isSome)
    (hresult : x.result? = some result) :
    ∃ seen rest ts' replies, moves = seen ++ rest ∧ Path v ts seen ts' ∧
      (∀ t ∈ ts'.begun, t.found?.isSome) ∧
      (ts'.searching v).result? = some replies ∧
      Exchange.Path ⟨.ready (next replies), n⟩ rest x := by
  generalize hstart : (⟨.searching (ts.searching v) next, n⟩ : Exchange α)
    = y at h
  induction h generalizing ts with
  | refl y =>
      subst hstart
      cases hresult
  | @step y z w seen rest first others ih =>
      subst hstart
      cases first with
      | sendSearch _ s' _ _ number request hsent =>
          obtain ⟨query, waiting, hwaiting, hroom⟩ := room_of_start? hsent
          obtain ⟨_, begun⟩ := ts
          subst hwaiting
          cases hsent.symm.trans
            (start?_searching query waiting
              (some (v.corpus.search query v.k)) hroom)
          rw [← countP_isOpen_eq 0 hfound] at hroom
          have hfound' :
              ∀ t ∈ begun ++ [⟨query, some (v.corpus.search query v.k), none⟩],
              t.found?.isSome := by
            refine List.forall_mem_append.mpr ⟨hfound, fun t ht => ?_⟩
            rw [List.mem_singleton.mp ht]
            rfl
          obtain ⟨seen, after, ts', replies, rfl, hpath, hrest⟩ :=
            ih _ hfound' hresult rfl
          exact ⟨_, after, ts', replies, (List.append_assoc ..).symm,
            (path_start hroom).trans hpath, hrest⟩
      | answerSearch _ _ _ number request hflying reply =>
          obtain ⟨i, t, hnumber, ht, hopen, rfl⟩ := mem_unheard.mp hflying
          obtain rfl : number = i := hnumber.trans (Nat.zero_add i)
          obtain ⟨waiting, begun⟩ := ts
          have hfound' : ∀ u ∈ begun.set number { t with
            reply? := some reply },
              u.found?.isSome := by
            intro u hu
            rcases List.mem_or_eq_of_mem_set hu with hu | rfl
            · exact hfound u hu
            · exact hfound t (List.mem_of_getElem? ht)
          rw [← searching_hear ht hopen] at others ih
          obtain ⟨seen, after, ts', replies, rfl, hpath, hrest⟩ :=
            ih _ hfound' hresult rfl
          exact ⟨_, after, ts', replies, (List.append_assoc ..).symm,
            .step (.hear waiting begun number t ht hopen reply) hpath, hrest⟩
      | searched _ _ _ replies hreplies =>
          exact ⟨[], rest, ts, replies, rfl, .refl _, hfound, hreplies, others⟩

-- ======================================================= the same outcomes

private theorem map_outcome? {replies : List SearchReply}
    (hfound : ∀ t ∈ begun, t.found? = some (v.corpus.search t.query v.k))
    (hreplies : begun.map Trial.reply? = replies.map some) :
    begun.map (Trial.outcome? v)
      = (List.zipWith v.outcome (begun.map Trial.query) replies).map some := by
  induction begun generalizing replies with
  | nil => rfl
  | cons t rest ih =>
      cases replies with
      | nil => cases hreplies
      | cons reply others =>
          obtain ⟨hreply, hothers⟩ := List.cons.inj hreplies
          obtain ⟨hsearch, hrest⟩ := List.forall_mem_cons.mp hfound
          have houtcome : t.outcome? v = some (v.outcome t.query reply) := by
            rw [Trial.outcome?, hsearch, hreply]
            rfl
          rw [List.map_cons, houtcome, ih hrest hothers]
          rfl

/-- The outcomes of a race are those that the conversation makes of the
replies; they are there when the replies are, and the oracle is done. -/
theorem After.result?_iff (h : After v queries moves ts)
    {outcomes : List Outcome} :
    ts.result? v = some outcomes ↔
      (∀ t ∈ ts.begun, t.found?.isSome) ∧ ∃ replies,
        (ts.searching v).result? = some replies ∧
          outcomes = List.zipWith v.outcome queries replies := by
  have hsearch : (∀ t ∈ ts.begun, t.found?.isSome) →
      ∀ t ∈ ts.begun, t.found? = some (v.corpus.search t.query v.k) := by
    intro hfound t ht
    obtain ⟨found, hsome⟩ := Option.isSome_iff_exists.mp (hfound t ht)
    obtain ⟨i, hi⟩ := List.mem_iff_getElem?.mp ht
    rw [hsome, (h.stands i t hi).found found hsome]
  obtain ⟨waiting, begun⟩ := ts
  have hqueries := h.queries_eq
  cases waiting with
  | cons query rest =>
      -- a query that waits has no outcome, and no reply
      refine ⟨fun hresult => absurd hresult (by simp [result?]), ?_⟩
      rintro ⟨-, replies, hreplies, -⟩
      have hmem : none ∈ replies.map some := by
        rw [← Searching.result?_eq_some_iff.mp hreplies]
        exact List.mem_append_right _ (List.mem_cons_self ..)
      obtain ⟨reply, -, hnone⟩ := List.mem_map.mp hmem
      cases hnone
  | nil =>
      rw [List.append_nil] at hqueries
      have hreplies_iff : ∀ replies,
          (searching v ⟨[], begun⟩).result? = some replies ↔
          begun.map Trial.reply? = replies.map some := by
        intro replies
        rw [Searching.result?_eq_some_iff]
        simp only [searching, List.map_nil, List.append_nil]
      constructor
      · intro hresult
        have hall := answered_of_result hresult
        have hfound : ∀ t ∈ begun, t.found?.isSome := by
          intro t ht
          obtain ⟨found, -, hfound, -⟩ := hall t ht
          exact Option.isSome_of_eq_some hfound
        obtain ⟨replies, hmapM⟩ := exists_mapM_eq_some fun t ht => by
          obtain ⟨-, reply, -, hreply⟩ := hall t ht
          exact Option.isSome_of_eq_some hreply
        have hreplies := mapM_eq_some_iff.mp hmapM
        refine ⟨hfound, replies, (hreplies_iff replies).mpr hreplies, ?_⟩
        have hmap := map_outcome? (hsearch hfound) hreplies
        rw [mapM_eq_some_iff.mp hresult, hqueries] at hmap
        exact List.map_injective_iff.mpr (fun _ _ => Option.some.inj) hmap
      · rintro ⟨hfound, replies, hreplies, rfl⟩
        rw [← hqueries]
        exact mapM_eq_some_iff.mpr
          (map_outcome? (hsearch hfound) ((hreplies_iff replies).mp hreplies))

/-- All that is seen of trials goes to the service or comes from it. -/
theorem Path.talkIn_eq (h : Path v ts moves ts') : talkIn moves = moves := by
  induction h with
  | refl ts => rfl
  | step first others ih =>
      rw [talkIn_append, ih]
      cases first <;> rfl

end Trials

-- =========================================================== the conversation

/-- Events are counted one after another. -/
theorem Exchange.path_of_noteAll {α : Type} (events : List Event)
    (next : Conversation α) (n : Nat) :
    Path ⟨.ready (.noteAll events next), n⟩ (events.map .note)
      ⟨.ready next, n⟩ := by
  induction events with
  | nil => exact .refl _
  | cons event events ih => exact .step (.note event _ n) ih

private theorem talkIn_map_note (events : List Event) :
    talkIn (events.map .note) = [] := by
  induction events with
  | nil => rfl
  | cons event events ih => exact ih

namespace Validator

variable {v : Validator} {queries : List Record} {moves : List Move}
  {outcomes : List Outcome}

/-- A race comes to what holding the conversation comes to, after the same
talk. Neither adds outcomes to the other, so what is shown of races holds of
the program. -/
theorem races_iff : v.Races queries moves outcomes ↔
    ∃ all, (v.validateAll queries).EndsWith all outcomes ∧
      talkIn all = moves := by
  constructor
  · rintro ⟨ts, hpath, hresult⟩
    have hafter := (Trials.After.ofQueries v queries).path hpath
    obtain ⟨-, replies, hreplies, rfl⟩ := hafter.result?_iff.mp hresult
    let events := (List.zipWith v.outcome queries replies).flatMap eventsOf
    refine ⟨[] ++ (moves ++ ([] ++ events.map .note)),
      ⟨0 + (queries.map v.searchOf).length, ?_⟩, ?_⟩
    · refine .step (.searchAll v.concurrency (queries.map v.searchOf) _ 0) ?_
      refine hpath.exchange.trans (.step (.searched _ _ _ replies hreplies) ?_)
      exact Exchange.path_of_noteAll events _ _
    · rw [List.nil_append, List.nil_append, talkIn_append, talkIn_map_note,
        hpath.talkIn_eq, List.append_nil]
  · rintro ⟨all, ⟨fresh, hreach⟩, rfl⟩
    have hsome :
        (⟨.ready (.done outcomes), fresh⟩ : Exchange (List Outcome)).result?
        = some outcomes := rfl
    cases hreach with
    | step first others =>
        cases first with
        | searchAll _ _ _ _ =>
            obtain ⟨seen, rest, ts, replies, rfl, hpath, hfound, hreplies,
                hrest⟩ :=
              Trials.path_of_exchange (.ofQueries queries) others
                (fun t ht => by cases ht) hsome
            have hafter := (Trials.After.ofQueries v queries).path hpath
            have hresult :=
              hafter.result?_iff.mpr ⟨hfound, replies, hreplies, rfl⟩
            rcases Exchange.path_noteAll hrest with ⟨-, hnone⟩ |
              ⟨last, htalk, hlast⟩
            · cases hnone
            · obtain ⟨rfl, heq⟩ := Exchange.path_done hlast
              cases heq
              refine ⟨ts, ?_, hresult⟩
              rw [List.nil_append, talkIn_append, htalk, hpath.talkIn_eq]
              show Trials.Path v _ (seen ++ []) ts
              rwa [List.append_nil]

/-- Queries against a service can come to outcomes, in some order of the
requests and the oracle's searches. -/
def Yields (v : Validator) (service : Nat → SearchReply)
    (queries : List Record) (outcomes : List Outcome) : Prop :=
  ∃ moves, v.Races queries moves outcomes ∧ Answers service moves

/-- The outcome of each query is that of its own search and its own reply, at
its place. -/
private theorem Yields.each {service : Nat → SearchReply}
    (h : v.Yields service queries outcomes) :
    outcomes.length = queries.length ∧
    ∀ i query, queries[i]? = some query →
      outcomes[i]? = some (v.outcome query (service i)) := by
  obtain ⟨moves, ⟨ts, hpath, hresult⟩, hservice⟩ := h
  exact ((Trials.After.ofQueries v queries).path hpath).outcomes
    hservice hresult

/-- Queries are validated independently of each other, and in order. -/
structure Independent (v : Validator) (queries : List Record) : Prop where
  /-- Whatever the service replies, and whoever is done first, the outcomes
  are there in the end. -/
  returns : ∀ service, Trials.Returns v service (.ofQueries queries)
  yields : ∀ service, ∃ outcomes, v.Yields service queries outcomes
  /-- The conversation does not show when the oracle searches, and has the
  same outcomes. -/
  talks : ∀ moves outcomes, v.Races queries moves outcomes ↔
    ∃ all, (v.validateAll queries).EndsWith all outcomes ∧ talkIn all = moves
  /-- No request has two replies. -/
  served : ∀ moves outcomes, v.Races queries moves outcomes →
    ∃ service, Answers service moves
  /-- There is one outcome for each query, in the order of the queries, and
  it comes from that query and the reply to it. -/
  ordered : ∀ service outcomes, v.Yields service queries outcomes →
    outcomes.length = queries.length ∧
    ∀ i query, queries[i]? = some query →
      ∃ o, outcomes[i]? = some o ∧ o.query = query.id ∧
        v.Judged query (service i) o.result
  /-- Another query or another reply in one place changes no outcome in
  another; nor does the order or the number of those in flight. -/
  alone :
    ∀ service service' outcomes outcomes' (width j : Nat) (query : Record),
    (∀ i, i ≠ j → service' i = service i) →
    v.Yields service queries outcomes →
    { v with
      concurrency := width }.Yields service' (queries.set j query) outcomes' →
    outcomes'.length = outcomes.length ∧ ∀ i, i ≠ j →
      outcomes'[i]? = outcomes[i]?

/-- However the searches and the requests interleave, and whatever the service
replies, each query is judged by its own two answers. -/
theorem validateAll_independent (v : Validator) (queries : List Record) :
    v.Independent queries where
  returns service := Trials.returns v service (.ofQueries queries)
  yields := by
    intro service
    obtain ⟨moves, ts, outcomes, hpath, hservice, hresult⟩ :=
      (Trials.returns v service (.ofQueries queries)).exists_path
    exact ⟨outcomes, moves, ⟨ts, hpath, hresult⟩, hservice⟩
  talks moves outcomes := races_iff
  served := by
    rintro moves outcomes ⟨ts, hpath, -⟩
    exact ((Trials.After.ofQueries v queries).path hpath).exists_answers
  ordered := by
    intro service outcomes hyields
    obtain ⟨hlength, houtcomes⟩ := hyields.each
    refine ⟨hlength, fun i query hquery => ?_⟩
    exact ⟨_, houtcomes i query hquery, rfl, judged_iff.mpr rfl⟩
  alone := by
    intro service service' outcomes outcomes' width j query hservice hyields
      hyields'
    obtain ⟨hlength, houtcomes⟩ := hyields.each
    obtain ⟨hlength', houtcomes'⟩ := hyields'.each
    rw [List.length_set] at hlength'
    refine ⟨hlength'.trans hlength.symm, fun i hi => ?_⟩
    have hsame : (queries.set j query)[i]? = queries[i]? :=
      List.getElem?_set_ne hi.symm
    cases hquery : queries[i]? with
    | some other =>
        rw [houtcomes i other hquery, houtcomes' i other (hsame.trans hquery),
          hservice i hi]
        rfl
    | none =>
        have hle := List.getElem?_eq_none_iff.mp hquery
        rw [List.getElem?_eq_none_iff.mpr (by omega),
          List.getElem?_eq_none_iff.mpr (by omega)]

end Validator

end KnnOracle
