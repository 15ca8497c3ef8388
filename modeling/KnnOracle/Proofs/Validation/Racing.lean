/-
Queries validated side by side.

For each query the oracle searches while the service is asked, and nobody
says which of the two is done first. Several queries are under way at a
time; the next one may begin when one of them has both its answers.
`Trials.Step` allows all of this, and whatever a scheduler does is one of
its paths. It may be slower to begin queries: one that hands the outcomes
out in order may wait until the first of those under way is over.

# What comes of it

`After` is the invariant, and says where the two answers of a query come
from: the oracle's from that query, the service's from the reply to that
request. `After.outcomes` reads the outcomes off it when the trials are
over.

They are over at some time. Each query counts three while it waits and
one for each answer that is missing, so that every step takes one away;
and where nothing can happen any more, no answer is missing
(`result_or_step`). `Trials.returns` puts the two together, for every
service that replies.
-/
import KnnOracle.Proofs.Comparison.Report
import KnnOracle.Proofs.Exchange.Returning
import KnnOracle.Validation.Engine

namespace KnnOracle

-- ========================================================== both answers

namespace Validator

/-- What is made of the two answers to a query. -/
def weigh (v : Validator) (found : Except Fault (List Neighbor))
    (reply : SearchReply) :
    Except QueryError Report :=
  match found with
  | .error e => .error (.oracle e)
  | .ok expected =>
      match reply with
      | .error e => .error (.service e)
      | .ok actual =>
          match v.comparator.compare expected actual with
          | .error e => .error (.oracle e)
          | .ok report => .ok report

/-- To judge a query is to weigh the oracle's answer against the reply. In this
form the two answers may come at different moments. -/
private theorem judge_eq_weigh (v : Validator) (query : Record)
    (reply : SearchReply) :
    v.judge query reply = v.weigh (v.corpus.search query v.k) reply := rfl

/-- The result that a query has to have, given the reply to it. -/
inductive Judged (v : Validator) (query : Record) (reply : SearchReply) :
    Except QueryError Report → Prop where
  /-- The oracle refuses the query. The reply is not looked at. -/
  | refused (e : Fault) (hsearch : v.corpus.search query v.k = .error e) :
      Judged v query reply (.error (.oracle e))
  | unanswered (expected : List Neighbor) (e : CallError)
      (hsearch : v.corpus.search query v.k = .ok expected)
      (hreply : reply = .error e) :
      Judged v query reply (.error (.service e))
  | noTolerance (expected actual : List Neighbor)
      (hsearch : v.corpus.search query v.k = .ok expected)
      (hreply : reply = .ok actual)
      (htolerance : ¬ v.comparator.HasTolerance) :
      Judged v query reply
        (.error (.oracle
          (.invalidThreshold .tolerance v.comparator.tolerance)))
  | noRecall (expected actual : List Neighbor)
      (hsearch : v.corpus.search query v.k = .ok expected)
      (hreply : reply = .ok actual)
      (htolerance : v.comparator.HasTolerance)
      (hrecall : ¬ v.comparator.HasRecall) :
      Judged v query reply
        (.error (.oracle
          (.invalidThreshold .minRecall v.comparator.minRecall)))
  | compared (expected actual : List Neighbor) (report : Report)
      (hsearch : v.corpus.search query v.k = .ok expected)
      (hreply : reply = .ok actual)
      (htolerance : v.comparator.HasTolerance)
      (hrecall : v.comparator.HasRecall)
      (hreport : v.comparator.compare expected actual = .ok report) :
      Judged v query reply (.ok report)

/-- A query is judged as it has to be, and there is one way to. -/
theorem judged_iff {v : Validator} {query : Record} {reply : SearchReply}
    {result : Except QueryError Report} :
    v.Judged query reply result ↔ v.judge query reply = result := by
  constructor
  · intro h
    cases h with
    | refused e hsearch => rw [judge, hsearch]
    | unanswered expected e hsearch hreply => rw [judge, hsearch, hreply]
    | noTolerance expected actual hsearch hreply htolerance =>
        rw [judge, hsearch, hreply]
        dsimp only
        rw [Comparator.compare_of_not_hasTolerance htolerance]
    | noRecall expected actual hsearch hreply htolerance hrecall =>
        rw [judge, hsearch, hreply]
        dsimp only
        rw [Comparator.compare_of_not_hasRecall htolerance hrecall]
    | compared expected actual report hsearch hreply htolerance hrecall
        hreport =>
        rw [judge, hsearch, hreply]
        dsimp only
        rw [hreport]
  · rintro rfl
    unfold judge
    split
    · next e hsearch => exact .refused e hsearch
    · next expected hsearch =>
        split
        · next e => exact .unanswered expected e hsearch rfl
        · next actual =>
            by_cases htolerance : v.comparator.HasTolerance
            · by_cases hrecall : v.comparator.HasRecall
              · obtain ⟨report, hreport, -⟩ :=
                  Comparator.exists_judges htolerance hrecall expected actual
                rw [hreport]
                exact .compared expected actual report hsearch rfl htolerance
                  hrecall hreport
              · rw [Comparator.compare_of_not_hasRecall htolerance hrecall]
                exact .noRecall expected actual hsearch rfl htolerance hrecall
            · rw [Comparator.compare_of_not_hasTolerance htolerance]
              exact .noTolerance expected actual hsearch rfl htolerance

end Validator

-- ============================================================ the trials

/-- A query that is under way, with the answers that are there. -/
structure Trial where
  query : Record
  found? : Option (Except Fault (List Neighbor))
  reply? : Option SearchReply

namespace Trial

/-- Whether an answer is missing. -/
def isOpen (t : Trial) : Bool := t.found?.isNone || t.reply?.isNone

/-- What comes of the query, once both answers are there. -/
def outcome? (v : Validator) (t : Trial) : Option Outcome :=
  match t.found?, t.reply? with
  | some found, some reply => some ⟨t.query.id, 0, v.weigh found reply⟩
  | _, _ => none

/-- How many answers are missing. -/
def left (t : Trial) : Nat :=
  (if t.found?.isNone then 1 else 0) + if t.reply?.isNone then 1 else 0

private theorem isSome_outcome? {v : Validator} {t : Trial}
    (h : t.isOpen = false) :
    (t.outcome? v).isSome := by
  obtain ⟨query, found?, reply?⟩ := t
  cases found? <;> cases reply? <;> first | rfl | cases h

/-- An outcome has both answers behind it. -/
theorem outcome?_eq_some {v : Validator} {t : Trial} {o : Outcome}
    (h : t.outcome? v = some o) :
    ∃ found reply, t.found? = some found ∧ t.reply? = some reply ∧
      o = ⟨t.query.id, 0, v.weigh found reply⟩ := by
  unfold outcome? at h
  split at h
  · next found reply hfound hreply =>
      cases h
      exact ⟨found, reply, hfound, hreply, rfl⟩
  · cases h

end Trial

/-- Queries that wait for their turn, and those whose turn has come, in the
order of the queries. -/
structure Trials where
  waiting : List Record
  begun : List Trial

namespace Trials

/-- No query has had its turn. -/
def ofQueries (queries : List Record) : Trials := ⟨queries, []⟩

/-- The outcomes in the order of the queries, once all are there. -/
def result? (v : Validator) (ts : Trials) : Option (List Outcome) :=
  match ts.waiting with
  | [] => ts.begun.mapM (Trial.outcome? v)
  | _ :: _ => none

/-- What may happen next, and what is seen of it. The place of a query is
the number of its request. -/
inductive Step (v : Validator) : Trials → List Move → Trials → Prop where
  /-- The next query has its turn, if there is room: the oracle starts to
  search, and the request is sent. -/
  | start (query : Record) (rest : List Record) (begun : List Trial)
      (hroom : begun.countP Trial.isOpen < max 1 v.concurrency) :
      Step v ⟨query :: rest, begun⟩
        [.send begun.length (.search (v.searchOf query))]
        ⟨rest, begun ++ [⟨query, none, none⟩]⟩
  /-- The oracle is done with a query. -/
  | find (waiting : List Record) (begun : List Trial) (i : Nat) (t : Trial)
      (h : begun[i]? = some t) (hopen : t.found? = none) :
      Step v ⟨waiting, begun⟩ []
        ⟨waiting, begun.set i { t with
          found? := some (v.corpus.search t.query v.k) }⟩
  /-- The reply to a request arrives. -/
  | hear (waiting : List Record) (begun : List Trial) (i : Nat) (t : Trial)
      (h : begun[i]? = some t) (hopen : t.reply? = none)
      (reply : SearchReply) :
      Step v ⟨waiting, begun⟩ [.receive i (.search (v.searchOf t.query)) reply]
        ⟨waiting, begun.set i { t with reply? := some reply }⟩

/-- Steps one after another, with all that is seen of them. -/
inductive Path (v : Validator) : Trials → List Move → Trials → Prop where
  | refl (ts : Trials) : Path v ts [] ts
  | step {ts ts' ts'' : Trials} {moves rest : List Move}
      (first : Step v ts moves ts')
      (others : Path v ts' rest ts'') : Path v ts (moves ++ rest) ts''

theorem Path.trans {v : Validator} {ts ts' ts'' : Trials}
    {moves rest : List Move} (h : Path v ts moves ts')
    (k : Path v ts' rest ts'') : Path v ts (moves ++ rest) ts'' := by
  induction h with
  | refl ts => exact k
  | step first others ih =>
      rw [List.append_assoc]
      exact .step first (ih k)

end Trials

/-- What is heard is what a service says; it may reply to each request as it
likes, and to equal requests differently. -/
def Answers (service : Nat → SearchReply) (moves : List Move) : Prop :=
  ∀ i request (reply : SearchReply),
    Move.receive i (.search request) reply ∈ moves →
    reply = service i

private theorem answers_nil (service : Nat → SearchReply) :
    Answers service [] := by
  intro i request reply hmem
  cases hmem

theorem Answers.append {service : Nat → SearchReply} {moves rest : List Move}
    (h : Answers service moves) (k : Answers service rest) :
    Answers service (moves ++ rest) := by
  intro i request reply hmem
  rcases List.mem_append.mp hmem with hmem | hmem
  · exact h i request reply hmem
  · exact k i request reply hmem

/-- The queries can come to the outcomes while the moves are seen. -/
def Validator.Races (v : Validator) (queries : List Record) (moves : List Move)
    (outcomes : List Outcome) : Prop :=
  ∃ ts, Trials.Path v (.ofQueries queries) moves ts ∧
    ts.result? v = some outcomes

namespace Trials

variable {v : Validator} {queries : List Record} {moves rest : List Move}
  {ts ts' : Trials}

-- ============================================================= the answers

/-- Where the query with a number stands after what was seen. -/
structure Stands (v : Validator) (moves : List Move) (i : Nat) (t : Trial) :
    Prop where
  /-- What the oracle found it found for this query. -/
  found : ∀ found, t.found? = some found → found = v.corpus.search t.query v.k
  /-- A reply that is there was heard. -/
  replied : ∀ reply, t.reply? = some reply →
    Move.receive i (.search (v.searchOf t.query)) reply ∈ moves

/-- A trial stands as it did when more is said. -/
theorem Stands.mono {i : Nat} {t : Trial} (h : Stands v moves i t)
    (rest : List Move) :
    Stands v (moves ++ rest) i t where
  found := h.found
  replied reply hreply := List.mem_append_left _ (h.replied reply hreply)

/-- Where all queries stand. -/
structure After (v : Validator) (queries : List Record) (moves : List Move)
    (ts : Trials) : Prop where
  queries_eq : ts.begun.map Trial.query ++ ts.waiting = queries
  stands : ∀ i t, ts.begun[i]? = some t → Stands v moves i t
  /-- A reply that was heard is there, and is the only one. -/
  heard : ∀ i request (reply : SearchReply),
    Move.receive i (.search request) reply ∈ moves →
    ∃ t, ts.begun[i]? = some t ∧ t.reply? = some reply

namespace After

variable {query : Record} {waiting : List Record} {begun : List Trial}
  {i : Nat} {t t' : Trial}

/-- Before the first trial the invariant holds, as nothing was said. -/
theorem ofQueries (v : Validator) (queries : List Record) :
    After v queries [] (.ofQueries queries) where
  queries_eq := rfl
  stands := by
    intro i t ht
    cases ht
  heard := by
    intro i request reply hmem
    cases hmem

/-- A trial that begins has its request sent, with the next number. -/
theorem start {number : Nat} {call : Call}
    (h : After v queries moves ⟨query :: waiting, begun⟩) :
    After v queries (moves ++ [.send number call])
      ⟨waiting, begun ++ [⟨query, none, none⟩]⟩ where
  queries_eq := by
    rw [← h.queries_eq, List.map_append, List.append_assoc]
    rfl
  stands := by
    intro i t ht
    rw [List.getElem?_append] at ht
    split at ht
    · exact (h.stands i t ht).mono _
    · obtain rfl := List.mem_singleton.mp (List.mem_of_getElem? ht)
      constructor
      · intro found hfound
        cases hfound
      · intro reply hreply
        cases hreply
  heard := by
    intro i request reply hmem
    rcases List.mem_append.mp hmem with hmem | hmem
    · obtain ⟨t, ht, hreply⟩ := h.heard i request reply hmem
      obtain ⟨hlt, -⟩ := List.getElem?_eq_some_iff.mp ht
      exact ⟨t, by rwa [List.getElem?_append_left hlt], hreply⟩
    · cases List.mem_singleton.mp hmem

/-- An answer to a query changes nothing but where that query stands. -/
theorem set (h : After v queries moves ⟨waiting, begun⟩)
    (ht : begun[i]? = some t) (hquery : t'.query = t.query)
    (ht' : Stands v (moves ++ rest) i t')
    (hheard : ∀ j request (reply : SearchReply),
      Move.receive j (.search request) reply ∈ moves ++ rest →
      ∃ u, (begun.set i t')[j]? = some u ∧ u.reply? = some reply) :
    After v queries (moves ++ rest) ⟨waiting, begun.set i t'⟩ where
  queries_eq := by
    obtain ⟨hlt, rfl⟩ := List.getElem?_eq_some_iff.mp ht
    rw [← h.queries_eq, List.map_set, hquery, ← List.map_set,
      List.set_getElem_self]
  stands := by
    intro j u hu
    rw [List.getElem?_set] at hu
    split at hu
    · next heq =>
        split at hu
        · cases hu
          rwa [← heq]
        · cases hu
    · exact (h.stands j u hu).mono rest
  heard := hheard

/-- Each step of the trials keeps the invariant. -/
theorem step (h : After v queries moves ts) (hstep : Step v ts rest ts') :
    After v queries (moves ++ rest) ts' := by
  cases hstep with
  | start query waiting begun hroom => exact h.start
  | find waiting begun i t ht hopen =>
      obtain ⟨hlt, -⟩ := List.getElem?_eq_some_iff.mp ht
      refine h.set ht rfl ?_ ?_
      · rw [List.append_nil]
        refine ⟨?_, (h.stands i t ht).replied⟩
        intro found hfound
        exact (Option.some.inj hfound).symm
      · intro j request reply hmem
        rw [List.append_nil] at hmem
        obtain ⟨u, hu, hreply⟩ := h.heard j request reply hmem
        by_cases heq : i = j
        · subst heq
          obtain rfl : t = u := Option.some.inj (ht.symm.trans hu)
          exact ⟨_, List.getElem?_set_self hlt, hreply⟩
        · exact ⟨u, (List.getElem?_set_ne heq).trans hu, hreply⟩
  | hear waiting begun i t ht hopen reply =>
      obtain ⟨hlt, -⟩ := List.getElem?_eq_some_iff.mp ht
      refine h.set ht rfl ?_ ?_
      · refine ⟨(h.stands i t ht).found, ?_⟩
        intro reply' hreply
        cases hreply
        exact List.mem_append_right _ (List.mem_singleton_self _)
      · intro j request reply' hmem
        rcases List.mem_append.mp hmem with hmem | hmem
        · -- it was heard before, and so from another query
          obtain ⟨u, hu, hreply⟩ := h.heard j request reply' hmem
          have hne : i ≠ j := by
            rintro rfl
            obtain rfl : t = u := Option.some.inj (ht.symm.trans hu)
            rw [hopen] at hreply
            cases hreply
          exact ⟨u, (List.getElem?_set_ne hne).trans hu, hreply⟩
        · cases List.mem_singleton.mp hmem
          exact ⟨_, List.getElem?_set_self hlt, rfl⟩

/-- So it holds after any path: each answer of a trial is that of its own
query. -/
theorem path (h : After v queries moves ts) (hpath : Path v ts rest ts') :
    After v queries (moves ++ rest) ts' := by
  induction hpath generalizing moves with
  | refl ts => rwa [List.append_nil]
  | step first others ih =>
      rw [← List.append_assoc]
      exact ih (h.step first)

-- ============================================================= the outcomes

/-- Each request was replied to once, so that what was heard is what some
service says. -/
theorem exists_answers (h : After v queries moves ts) :
    ∃ service, Answers service moves := by
  refine ⟨fun i => (ts.begun[i]?.bind Trial.reply?).getD (.ok []), ?_⟩
  intro i request reply hmem
  obtain ⟨t, ht, hreply⟩ := h.heard i request reply hmem
  show reply = (ts.begun[i]?.bind Trial.reply?).getD (.ok [])
  rw [ht, Option.bind_some, hreply, Option.getD_some]

/-- What comes of a query has to do with nothing but the query and the reply to
it. -/
theorem outcome {service : Nat → SearchReply} {o : Outcome}
    (h : After v queries moves ts) (hservice : Answers service moves)
    (ht : ts.begun[i]? = some t) (ho : t.outcome? v = some o) :
    o = v.outcome t.query (service i) := by
  obtain ⟨found, reply, hfound, hreply, rfl⟩ := Trial.outcome?_eq_some ho
  have hstands := h.stands i t ht
  rw [hstands.found found hfound,
    hservice i _ reply (hstands.replied reply hreply),
    ← Validator.judge_eq_weigh]
  rfl

/-- When the trials are over there is one outcome for each query, made of its
own search and the reply to its own request. -/
theorem outcomes {service : Nat → SearchReply} {outcomes : List Outcome}
    (h : After v queries moves ts) (hservice : Answers service moves)
    (hresult : ts.result? v = some outcomes) :
    outcomes.length = queries.length ∧
    ∀ i query, queries[i]? = some query →
      outcomes[i]? = some (v.outcome query (service i)) := by
  obtain ⟨waiting, begun⟩ := ts
  cases waiting with
  | cons query rest => cases hresult
  | nil =>
      have hall := mapM_eq_some_iff.mp hresult
      have hqueries := h.queries_eq
      rw [List.append_nil] at hqueries
      subst hqueries
      constructor
      · have hlength := congrArg List.length hall
        rw [List.length_map, List.length_map] at hlength
        rw [List.length_map, hlength]
      · intro i query hquery
        rw [List.getElem?_map, Option.map_eq_some_iff] at hquery
        obtain ⟨t, ht, rfl⟩ := hquery
        have hplace := congrArg (fun list => list[i]?) hall
        simp only [List.getElem?_map, ht, Option.map_some] at hplace
        obtain ⟨o, ho, hsome⟩ := Option.map_eq_some_iff.mp hplace.symm
        rw [ho, h.outcome hservice ht hsome.symm]

end After

-- =========================================================== coming to an end

/-- How many answers are missing to the queries that are begun. -/
def missing : List Trial → Nat
  | [] => 0
  | t :: rest => t.left + missing rest

/-- How much is left to do. -/
def left (ts : Trials) : Nat := 3 * ts.waiting.length + missing ts.begun

private theorem missing_concat (begun : List Trial) (t : Trial) :
    missing (begun ++ [t]) = missing begun + t.left := by
  induction begun with
  | nil => simp [missing]
  | cons other rest ih =>
      rw [List.cons_append, missing, missing, ih]
      omega

private theorem missing_set {begun : List Trial} {i : Nat} {t : Trial}
    (ht : begun[i]? = some t) (t' : Trial) :
    missing (begun.set i t') + t.left = missing begun + t'.left := by
  induction begun generalizing i with
  | nil => cases ht
  | cons other rest ih =>
      cases i with
      | zero =>
          cases ht
          rw [List.set_cons_zero, missing, missing]
          omega
      | succ i =>
          have := ih ht
          rw [List.set_cons_succ, missing, missing]
          omega

private theorem left_set {waiting : List Record} {begun : List Trial} {i : Nat}
    {t t' : Trial} (ht : begun[i]? = some t) (hlt : t'.left < t.left) :
    left ⟨waiting, begun.set i t'⟩ < left ⟨waiting, begun⟩ := by
  have hmissing := missing_set ht t'
  show 3 * waiting.length + missing (begun.set i t')
    < 3 * waiting.length + missing begun
  omega

/-- Each step leaves less, whichever trial takes it. So trials do not go on
forever. -/
private theorem left_step (h : Step v ts moves ts') : ts'.left < ts.left := by
  cases h with
  | start query waiting begun hroom =>
      have htwo : Trial.left ⟨query, none, none⟩ = 2 := rfl
      simp only [left, missing_concat, htwo, List.length_cons]
      omega
  | find waiting begun i t ht hopen =>
      apply left_set ht
      simp [Trial.left, hopen]
  | hear waiting begun i t ht hopen reply =>
      apply left_set ht
      simp [Trial.left, hopen]

/-- Where the outcomes are not there, something may happen, whatever the
service replies. -/
theorem result_or_step (v : Validator) (service : Nat → SearchReply)
    (ts : Trials) :
    (∃ outcomes, ts.result? v = some outcomes) ∨
    ∃ moves ts', Step v ts moves ts' ∧ Answers service moves := by
  obtain ⟨waiting, begun⟩ := ts
  by_cases hopen : ∃ t ∈ begun, t.isOpen = true
  · -- an answer is missing, and may be there next
    obtain ⟨t, hmem, hopen⟩ := hopen
    obtain ⟨i, ht⟩ := List.mem_iff_getElem?.mp hmem
    right
    cases hfound : t.found? with
    | none =>
        exact ⟨_, _, .find waiting begun i t ht hfound, answers_nil service⟩
    | some found =>
        have hreply : t.reply? = none := by
          simpa [Trial.isOpen, hfound] using hopen
        refine ⟨_, _, .hear waiting begun i t ht hreply (service i), ?_⟩
        intro j request reply hheard
        cases List.mem_singleton.mp hheard
        rfl
  · have hclosed : ∀ t ∈ begun, t.isOpen = false :=
      fun t ht => Bool.eq_false_iff.mpr fun h => hopen ⟨t, ht, h⟩
    cases waiting with
    | nil =>
        exact .inl (exists_mapM_eq_some fun t ht =>
          Trial.isSome_outcome? (hclosed t ht))
    | cons query rest =>
        -- nothing takes up room
        have hcount : begun.countP Trial.isOpen = 0 :=
          List.countP_eq_zero.mpr fun t ht => by simp [hclosed t ht]
        have hroom : begun.countP Trial.isOpen < max 1 v.concurrency := by
          omega
        refine .inr ⟨_, _, .start query rest begun hroom, ?_⟩
        intro j request reply hheard
        cases List.mem_singleton.mp hheard

/-- When the outcomes are there, so are both answers to each query. -/
theorem answered_of_result {outcomes : List Outcome}
    (hresult : ts.result? v = some outcomes) :
    ∀ t ∈ ts.begun, ∃ found reply, t.found? = some found ∧
      t.reply? = some reply := by
  intro t ht
  unfold result? at hresult
  split at hresult
  · have hmem : t.outcome? v ∈ outcomes.map some := by
      rw [← mapM_eq_some_iff.mp hresult]
      exact List.mem_map_of_mem ht
    obtain ⟨o, -, ho⟩ := List.mem_map.mp hmem
    obtain ⟨found, reply, hfound, hreply, -⟩ := Trial.outcome?_eq_some ho.symm
    exact ⟨found, reply, hfound, hreply⟩
  · cases hresult

/-- Nothing happens any more once the outcomes are there. -/
theorem not_step_of_result {outcomes : List Outcome}
    (hresult : ts.result? v = some outcomes) :
    ¬ Step v ts moves ts' := by
  have hclosed := answered_of_result hresult
  intro hstep
  cases hstep with
  | start query waiting begun hroom => cases hresult
  | find waiting begun i t ht hopen =>
      obtain ⟨found, reply, hfound, -⟩ := hclosed t (List.mem_of_getElem? ht)
      rw [hopen] at hfound
      cases hfound
  | hear waiting begun i t ht hopen reply =>
      obtain ⟨found, reply, -, hreply⟩ := hclosed t (List.mem_of_getElem? ht)
      rw [hopen] at hreply
      cases hreply

/-- Every way on from here comes to an end, with outcomes, as long as the
service replies what it replies. -/
inductive Returns (v : Validator) (service : Nat → SearchReply) :
    Trials → Prop where
  | done {ts : Trials} (outcomes : List Outcome)
      (hresult : ts.result? v = some outcomes)
      (hlast : ∀ moves ts', ¬ Step v ts moves ts') : Returns v service ts
  | later {ts : Trials} (can : ∃ moves ts', Step v ts moves ts' ∧
      Answers service moves)
      (must : ∀ moves ts', Step v ts moves ts' → Answers service moves →
        Returns v service ts') : Returns v service ts

/-- Trials return for every service that replies, in whatever order things
happen. -/
theorem returns (v : Validator) (service : Nat → SearchReply) (ts : Trials) :
    Returns v service ts := by
  induction hleft : ts.left using Nat.strongRecOn generalizing ts with
  | ind left ih =>
      subst hleft
      rcases result_or_step v service ts with ⟨outcomes, hresult⟩ | hcan
      · exact .done outcomes hresult fun _ _ => not_step_of_result hresult
      · exact .later hcan fun _ ts' hstep _ => ih _ (left_step hstep) ts' rfl

/-- The end is reached by some path, so that returning is no empty promise. -/
theorem Returns.exists_path {service : Nat → SearchReply}
    (h : Returns v service ts) :
    ∃ moves ts' outcomes, Path v ts moves ts' ∧ Answers service moves ∧
      ts'.result? v = some outcomes := by
  induction h with
  | done outcomes hresult _ =>
      exact ⟨[], _, outcomes, .refl _, answers_nil service, hresult⟩
  | later can _ ih =>
      obtain ⟨seen, ts', hstep, hseen⟩ := can
      obtain ⟨moves, ts'', outcomes, hpath, hmoves, hresult⟩ :=
        ih seen ts' hstep hseen
      exact ⟨seen ++ moves, ts'', outcomes, .step hstep hpath,
        hseen.append hmoves, hresult⟩

end Trials

end KnnOracle
