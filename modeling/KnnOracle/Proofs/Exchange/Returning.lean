/-
Every conversation returns.

As long as a service answers what it is asked, a conversation comes to
its end, whatever the answers are and in whatever order they arrive: it
is never stuck before (`Returns.later` asks for a step), and it cannot go
on forever (`Returns` is inductive). `returns_ready` is the statement for
whole conversations; `Returns.path` carries it along to every moment of
them.

# The measure

Within an upload, or a round of searches, a job counts two while it waits
and one while it is in flight, so each step but the last takes one away.
An upload can always go on: if nothing was refused and a job is left,
then one is in flight, or there is room for one. For searches this needs
to be said of the replies too: the machine is only over when they are all
there, and that a reply that is missing belongs to a job that is left is
the invariant `Searching.Complete`.
-/
import Mathlib.Data.List.Basic
import KnnOracle.Proofs.Exchange.Batches
import KnnOracle.Proofs.Traversal

namespace KnnOracle

-- ============================================================ the measure

namespace Window

variable {β : Type}

/-- What is left to do: each job is to be sent and to be answered. -/
def left (w : Window β) : Nat := 2 * w.waiting.length + w.flying.length

/-- To start a job leaves less to do: it does not wait any more. -/
theorem left_start {w w' : Window β} {job : Nat × β}
    (h : w.start? = some (job, w')) :
    w'.left < w.left := by
  obtain ⟨hwaiting, hflying, -, -⟩ := start?_eq_some h
  unfold left
  rw [hwaiting, hflying, List.length_cons, List.length_append,
    List.length_singleton]
  omega

/-- To finish a job leaves less to do: it is not in flight any more. -/
theorem left_finish {w : Window β} {number : Nat} {job : β}
    (h : (number, job) ∈ w.flying) :
    (w.finish number).left < w.left := by
  have hlt : (w.flying.filter fun other => other.1 != number).length
      < w.flying.length := by
    apply List.length_filter_lt_length_iff_exists.mpr
    exact ⟨(number, job), h, by simp⟩
  show 2 * w.waiting.length + _ < 2 * w.waiting.length + _
  exact Nat.add_lt_add_left hlt _

/-- A job that is left is in flight, or one can be started. So a window never
waits for nothing. -/
theorem flying_or_start? {w : Window β} (h : w.isOver = false) :
    (∃ job, job ∈ w.flying) ∨ ∃ job w', w.start? = some (job, w') := by
  cases hflying : w.flying with
  | cons job rest => exact Or.inl ⟨job, List.mem_cons_self ..⟩
  | nil =>
      have hwaiting : w.waiting ≠ [] := by
        intro hwaiting
        rw [isOver, hwaiting, hflying] at h
        cases h
      obtain ⟨⟨job, w'⟩, hstart⟩ :=
        Option.isSome_iff_exists.mp (start?_isSome hflying hwaiting)
      exact Or.inr ⟨job, w', hstart⟩

end Window

-- ============================================================== searches

namespace Searching

/-- The replies that a round of searches ends with are all there, each at the
place of its search. -/
theorem result?_eq_some_iff {s : Searching} {replies : List SearchReply} :
    s.result? = some replies ↔ s.replies = replies.map some := by
  rw [Searching.result?, mapM_eq_some_iff, List.map_id']

/-- A reply that is missing is the reply to a job that is left. -/
def Complete (s : Searching) : Prop :=
  ∀ i, s.replies[i]? = some none →
    ∃ job ∈ s.window.waiting ++ s.window.flying, job.1 = s.first + i

theorem complete_ofSearches (width first : Nat)
    (searches : List SearchRequest) :
    (ofSearches width first searches).Complete := by
  intro i hi
  have hmap : (searches.map fun _ => (none : Option SearchReply))[i]?
    = some none := hi
  rw [List.getElem?_map, Option.map_eq_some_iff] at hmap
  obtain ⟨request, hrequest, -⟩ := hmap
  refine ⟨(first + i, request), ?_, rfl⟩
  exact List.mem_append_left _ (Window.mem_number.mpr ⟨i, rfl, hrequest⟩)

/-- A search that starts is not lost: it is in flight from then on. -/
theorem Complete.start {s s' : Searching} {job : Nat × SearchRequest}
    (h : s.Complete) (hstart : s.start? = some (job, s')) : s'.Complete := by
  obtain ⟨⟨started, window⟩, hwindow, heq⟩ := Option.map_eq_some_iff.mp hstart
  cases heq
  obtain ⟨hwaiting, hflying, -, -⟩ := Window.start?_eq_some hwindow
  intro i hi
  obtain ⟨left, hleft, hnumber⟩ := h i hi
  refine ⟨left, ?_, hnumber⟩
  show left ∈ window.waiting ++ window.flying
  rw [hflying]
  rw [hwaiting] at hleft
  -- the job changes places with those in flight
  simp only [List.mem_append, List.mem_cons, List.not_mem_nil] at hleft ⊢
  rcases hleft with (h | h) | h
  · exact Or.inr (Or.inr (Or.inl h))
  · exact Or.inl h
  · exact Or.inr (Or.inl h)

/-- A search that is answered is not lost: its reply stays at its place. -/
theorem Complete.receive {s : Searching} (h : s.Complete) (number : Nat)
    (reply : SearchReply) :
    (s.receive number reply).Complete := by
  intro i hi
  have hset : (s.replies.set (number - s.first) (some reply))[i]?
    = some none := hi
  have hne : number - s.first ≠ i := by
    intro heq
    rw [List.getElem?_set, if_pos heq] at hset
    split at hset
    · cases hset
    · cases hset
  rw [List.getElem?_set_ne hne] at hset
  obtain ⟨job, hjob, hnumber⟩ := h i hset
  refine ⟨job, ?_, hnumber⟩
  rcases List.mem_append.mp hjob with hjob | hjob
  · exact List.mem_append_left _ hjob
  · have hkept : job.1 ≠ number := by omega
    exact List.mem_append_right
      _ (List.mem_filter.mpr ⟨hjob, bne_iff_ne.mpr hkept⟩)

/-- When no job is left, every reply is there, for none of the searches was
lost. -/
theorem Complete.result? {s : Searching} (h : s.Complete)
    (hover : s.window.isOver = true) :
    ∃ replies, s.result? = some replies := by
  have hempty : s.window.waiting = [] ∧ s.window.flying = [] := by
    simpa [Window.isOver] using hover
  have hall : ∀ reply ∈ s.replies, reply.isSome := by
    intro reply hreply
    cases reply with
    | some reply => rfl
    | none =>
        obtain ⟨i, hi⟩ := List.mem_iff_getElem?.mp hreply
        obtain ⟨job, hjob, -⟩ := h i hi
        rw [hempty.1, hempty.2] at hjob
        cases hjob
  exact exists_mapM_eq_some hall

end Searching

-- ============================================================= returning

namespace Exchange

variable {α : Type}

/-- Every way on from here comes to an end, with a result. -/
inductive Returns : Exchange α → Prop where
  | done (result : α) (n : Nat) : Returns ⟨.ready (.done result), n⟩
  | later {x : Exchange α} (can : ∃ moves y, Step x moves y)
      (must : ∀ moves y, Step x moves y → Returns y) : Returns x

/-- What returns, whatever happens, also returns after some of it has
happened. -/
theorem Returns.path {x y : Exchange α} {moves : List Move} (h : x.Returns)
    (hpath : Path x moves y) : y.Returns := by
  induction hpath with
  | refl x => exact h
  | step first others ih =>
      apply ih
      cases h with
      | done result n => cases first
      | later can must => exact must _ _ first

/-- An upload window returns if what follows does. Each step leaves less to do
in it, and a batch in flight can be answered at any time. -/
private theorem returns_uploading (u : Uploading)
    (next : Tally → Conversation α) (n : Nat)
    (hnext : ∀ tally n, Returns ⟨.ready (next tally), n⟩) :
    Returns ⟨.uploading u next, n⟩ := by
  induction hleft : u.window.left using Nat.strongRecOn generalizing u with
  | ind left ih =>
      subst hleft
      refine .later ?_ ?_
      · cases hrefused : u.refused? with
        | some refusal =>
            refine ⟨_, _, .uploaded u next n ⟨u.accepted, u.refused?⟩ ?_⟩
            rw [Uploading.tally?, hrefused]
            rfl
        | none =>
            cases hover : u.window.isOver with
            | true =>
                refine ⟨_, _, .uploaded u next n ⟨u.accepted, u.refused?⟩ ?_⟩
                rw [Uploading.tally?, hover, Bool.or_true]
                rfl
            | false =>
                rcases Window.flying_or_start? hover with
                  ⟨⟨number, batch⟩, hmem⟩ |
                  ⟨⟨number, batch⟩, window, hstart⟩
                · exact ⟨_, _, .answerBatch u next n number batch hmem hrefused
                    (.ok ())⟩
                · refine ⟨_, _, .sendBatch u { u with window } next n number
                    batch ?_⟩
                  rw [Uploading.start?, hrefused, hstart]
                  rfl
      · intro moves y hstep
        cases hstep with
        | sendBatch u u' next n number batch hstart =>
            refine ih _ ?_ u' rfl
            unfold Uploading.start? at hstart
            split at hstart
            · cases hstart
            · obtain ⟨⟨job, window⟩, hwindow, heq⟩ :=
                Option.map_eq_some_iff.mp hstart
              cases heq
              exact Window.left_start hwindow
        | answerBatch u next n number batch hmem hopen reply =>
            refine ih _ ?_ (u.receive number reply) rfl
            cases reply with
            | ok done => exact Window.left_finish hmem
            | error e => exact Window.left_finish hmem
        | uploaded u next n tally htally => exact hnext tally n

/-- A search window returns if what follows does. At its end every search has
its reply, since none was lost. -/
private theorem returns_searching (s : Searching)
    (next : List SearchReply → Conversation α) (n : Nat) (hs : s.Complete)
    (hnext : ∀ replies n, Returns ⟨.ready (next replies), n⟩) :
    Returns ⟨.searching s next, n⟩ := by
  induction hleft : s.window.left using Nat.strongRecOn generalizing s with
  | ind left ih =>
      subst hleft
      refine .later ?_ ?_
      · cases hover : s.window.isOver with
        | true =>
            obtain ⟨replies, hreplies⟩ := hs.result? hover
            exact ⟨_, _, .searched s next n replies hreplies⟩
        | false =>
            rcases Window.flying_or_start? hover with
              ⟨⟨number, request⟩, hmem⟩ |
              ⟨⟨number, request⟩, window, hstart⟩
            · exact ⟨_, _, .answerSearch s next n number request hmem (.ok [])⟩
            · refine ⟨_, _, .sendSearch s { s with window } next n number
                request ?_⟩
              rw [Searching.start?, hstart]
              rfl
      · intro moves y hstep
        cases hstep with
        | sendSearch s s' next n number request hstart =>
            refine ih _ ?_ s' (hs.start hstart) rfl
            obtain ⟨⟨job, window⟩, hwindow, heq⟩ :=
              Option.map_eq_some_iff.mp hstart
            cases heq
            exact Window.left_start hwindow
        | answerSearch s next n number request hmem reply =>
            exact ih _ (Window.left_finish hmem) (s.receive number reply)
              (hs.receive number reply) rfl
        | searched s next n replies hreplies => exact hnext replies n

/-- Every conversation returns, for every service that replies and in whatever
order it does. This is by induction over the conversation. -/
theorem returns_ready (c : Conversation α) (n : Nat) :
    Returns ⟨.ready c, n⟩ := by
  induction c generalizing n with
  | done result => exact .done result n
  | note event next ih =>
      refine .later ⟨_, _, .note event next n⟩ ?_
      intro moves y hstep
      cases hstep with
      | note _ _ _ => exact ih n
  | ask call next ih =>
      refine .later ⟨_, _, .ask call next n⟩ ?_
      intro moves y hstep
      cases hstep with
      | ask _ _ _ =>
          refine .later
            ⟨_, _, .answer n call next (n + 1) (.error (.unreachable ""))⟩ ?_
          intro moves y hstep
          cases hstep with
          | answer _ _ _ _ reply => exact ih reply (n + 1)
  | upload width batches next ih =>
      refine .later ⟨_, _, .upload width batches next n⟩ ?_
      intro moves y hstep
      cases hstep with
      | upload _ _ _ _ => exact returns_uploading _ next _ ih
  | searchAll width searches next ih =>
      refine .later ⟨_, _, .searchAll width searches next n⟩ ?_
      intro moves y hstep
      cases hstep with
      | searchAll _ _ _ _ =>
          exact returns_searching
            _ next _ (Searching.complete_ofSearches width n searches) ih

end Exchange

end KnnOracle
