/-
Calls made side by side.

A window lets a bounded number of jobs be in flight at a time. Jobs are
numbered and started in order, and they may end in any order. Two kinds
of work go through windows:

* `Uploading`: batches, until one is refused or all are accepted. Once a
  batch was refused no other is started, and what is in flight then is
  not waited for.
* `Searching`: searches, whose replies are put in the order of the
  searches and are complete when the last of them is there.

Neither says what happens next, only what may happen: whoever does the
work starts jobs while `start?` has one and reports replies in the order
in which they arrive.
-/
import KnnOracle.Exchange.Call

namespace KnnOracle

-- ============================================================= windows

/-- Jobs with their numbers: those not started yet, and those in flight,
of which there are at most `width`. A width of zero counts as one, so
that there is always room for a first job. -/
structure Window (β : Type) where
  width : Nat
  waiting : List (Nat × β)
  flying : List (Nat × β)

namespace Window

variable {β : Type}

/-- Numbers jobs from `first` on. -/
def number (first : Nat) : List β → List (Nat × β)
  | [] => []
  | job :: rest => (first, job) :: number (first + 1) rest

/-- A window over jobs, none of which is started. -/
def ofJobs (width first : Nat) (jobs : List β) : Window β :=
  ⟨width, number first jobs, []⟩

/-- Starts the next job, if there is one and room for it. -/
def start? (w : Window β) : Option ((Nat × β) × Window β) :=
  match w.waiting with
  | [] => none
  | job :: rest =>
      if w.flying.length < max 1 w.width then
        some (job, { w with waiting := rest, flying := w.flying ++ [job] })
      else none

/-- Takes the job with a number out of flight. -/
def finish (w : Window β) (number : Nat) : Window β :=
  { w with flying := w.flying.filter fun job => job.1 != number }

/-- Whether every job was started and has ended. -/
def isOver (w : Window β) : Bool := w.waiting.isEmpty && w.flying.isEmpty

/-- What is started was next in line, there was room for it, and it is in
flight now. -/
theorem start?_eq_some {w w' : Window β} {job : Nat × β}
    (h : w.start? = some (job, w')) :
    w.waiting = job :: w'.waiting ∧ w'.flying = w.flying ++ [job] ∧
    w'.width = w.width ∧
    w'.flying.length ≤ max 1 w.width := by
  simp only [start?] at h
  split at h
  · cases h
  · next rest hwaiting =>
      split at h
      · next hroom =>
          cases h
          refine ⟨hwaiting, rfl, rfl, ?_⟩
          simp only [List.length_append, List.length_singleton]
          omega
      · cases h

/-- Where nothing is in flight and a job waits, one can be started. -/
theorem start?_isSome {w : Window β} (hflying : w.flying = [])
    (hwaiting : w.waiting ≠ []) :
    w.start?.isSome := by
  simp only [start?]
  split
  · next h => exact absurd h hwaiting
  · rw [if_pos]
    · rfl
    · rw [hflying, List.length_nil]
      omega

end Window

-- ============================================================= uploads

/-- How an upload ended: how many batches were accepted, and which one,
if any, was refused and why. -/
structure Tally where
  accepted : Nat
  refused? : Option (Nat × CallError)

/-- An upload under way. The batches have consecutive numbers from `first`
on; a refusal names the place of its batch among them. -/
structure Uploading where
  first : Nat
  window : Window Batch
  accepted : Nat
  refused? : Option (Nat × CallError)

namespace Uploading

/-- An upload that has not begun. -/
def ofBatches (width first : Nat) (batches : List Batch) : Uploading :=
  ⟨first, .ofJobs width first batches, 0, none⟩

/-- Starts the next batch. After a refusal there is none. -/
def start? (u : Uploading) : Option ((Nat × Batch) × Uploading) :=
  match u.refused? with
  | some _ => none
  | none => u.window.start?.map fun (job, window) => (job, { u with window })

/-- Takes the reply to a batch into account. -/
def receive (u : Uploading) (number : Nat) : Except CallError Unit → Uploading
  | .ok () =>
      { u with window := u.window.finish number, accepted := u.accepted + 1 }
  | .error e =>
      { u with
        window := u.window.finish number, refused? :=
          some (number - u.first, e) }

/-- How the upload ended, if it did. -/
def tally? (u : Uploading) : Option Tally :=
  if u.refused?.isSome || u.window.isOver then some ⟨u.accepted, u.refused?⟩
  else none

end Uploading

-- ============================================================ searches

/-- What comes back from a search. -/
abbrev SearchReply : Type := Except CallError (List Neighbor)

/-- Searches under way, with the replies that have arrived. -/
structure Searching where
  first : Nat
  window : Window SearchRequest
  replies : List (Option SearchReply)

namespace Searching

/-- Searches that have not begun. -/
def ofSearches (width first : Nat) (searches : List SearchRequest) :
    Searching :=
  ⟨first, .ofJobs width first searches, searches.map fun _ => none⟩

/-- Starts the next search. -/
def start? (s : Searching) : Option ((Nat × SearchRequest) × Searching) :=
  s.window.start?.map fun (job, window) => (job, { s with window })

/-- Takes the reply to a search into account. -/
def receive (s : Searching) (number : Nat) (reply : SearchReply) : Searching :=
  { s with
    window := s.window.finish number
    replies := s.replies.set (number - s.first) (some reply) }

/-- The replies in the order of the searches, once all are there. -/
def result? (s : Searching) : Option (List SearchReply) :=
  s.replies.mapM fun reply => reply

end Searching

end KnnOracle
