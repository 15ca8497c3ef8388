/-
Reading a sample back.

What is fetched back is a sample of the corpus, and each record of it must be
there as it was sent (`Settings.Restores`). `Settings.Misread` is all that can
be wrong with a reply.

All inquiries about the sample were accepted if and only if the replies
restore it (`Accepted.restores`, `Asked.accepted_of_restores`). Both go by
induction on the sample, a fetch and its reply at a time.
-/
import Mathlib.Data.List.Forall2
import KnnOracle.Proofs.Session.Sampling
import KnnOracle.Proofs.Session.Stages

namespace KnnOracle

-- =========================================================== the replies

/-- A reply to a fetch, if one is received. -/
def Move.fetched? : Move → Option (FetchRequest × Except CallError Record)
  | .receive _ (.fetch request) reply => some (request, reply)
  | _ => none

/-- The replies to fetches, in order. -/
def fetchedIn (moves : List Move) :
    List (FetchRequest × Except CallError Record) :=
  moves.filterMap Move.fetched?

namespace Settings

/-- The record was asked for, and came back as it was sent. -/
def Restores (s : Settings) (expected : Record)
    (answer : FetchRequest × Except CallError Record) :
    Prop :=
  answer.1 = ⟨s.collection, expected.id⟩ ∧
  ∃ stored, answer.2 = .ok stored ∧ stored.dimension = expected.dimension ∧
    ¬ drift expected.values stored.values > s.tolerance

/-- What is wrong with a reply to a fetch. -/
inductive Misread (s : Settings) (expected : Record) :
    Except CallError Record → Failure → Prop where
  | failed (e : CallError) :
      Misread s expected (.error e) (.notReadBack expected.id e)
  | dimension (stored : Record) (h : stored.dimension ≠ expected.dimension) :
      Misread s expected (.ok stored)
        (.readBackDimension expected.id stored.dimension expected.dimension)
  | drift (stored : Record) (h : stored.dimension = expected.dimension)
      (hdrift : drift expected.values stored.values > s.tolerance) :
      Misread s expected (.ok stored)
        (.readBackDrift expected.id
          (KnnOracle.drift expected.values stored.values) s.tolerance)

end Settings

section replies

variable {s : Settings}

/-- A record that comes back was restored, or something is wrong with it. -/
theorem judgeStored_cases (s : Settings) (expected : Record)
    (reply : Except CallError Record) :
    (s.judgeStored expected reply = .ok () ∧
      s.Restores expected (⟨s.collection, expected.id⟩, reply)) ∨
    ∃ failure, s.judgeStored expected reply = .error failure ∧
      s.Misread expected reply failure := by
  cases reply with
  | error e => exact Or.inr ⟨_, rfl, .failed e⟩
  | ok stored =>
      show (checkStored s.tolerance expected stored = _ ∧ _) ∨
        ∃ failure, checkStored s.tolerance expected stored = _ ∧ _
      unfold checkStored
      by_cases hdimension : stored.dimension ≠ expected.dimension
      · rw [if_pos hdimension]
        exact Or.inr ⟨_, rfl, .dimension stored hdimension⟩
      rw [if_neg hdimension]
      have hsame := Decidable.not_not.mp hdimension
      dsimp only
      by_cases hdrift : drift expected.values stored.values > s.tolerance
      · rw [if_pos hdrift]
        exact Or.inr ⟨_, rfl, .drift stored hsame hdrift⟩
      · rw [if_neg hdrift]
        exact Or.inl ⟨rfl, rfl, stored, rfl, hsame, hdrift⟩

/-- An answer that restores a record is none that misreads it, so the two
outcomes of a check exclude each other. -/
private theorem Settings.Restores.not_misread {expected : Record}
    {answer : FetchRequest × Except CallError Record} {failure : Failure}
    (h : s.Restores expected answer) :
    ¬s.Misread expected answer.2 failure := by
  obtain ⟨-, stored, hstored, hdimension, hdrift⟩ := h
  rw [hstored]
  intro hmisread
  cases hmisread with
  | dimension _ hne => exact hne hdimension
  | drift _ _ hlarge => exact hdrift hlarge

end replies

-- ============================================================ the fetches

section fetches

variable {s : Settings} {n : Nat} {moves : List Move}

theorem fetchedIn_append (moves rest : List Move) :
    fetchedIn (moves ++ rest) = fetchedIn moves ++ fetchedIn rest :=
      List.filterMap_append

theorem fetchedIn_eq_nil (h : ∀ move ∈ moves, move.stage? ≠ some .readBack) :
    fetchedIn moves = [] := by
  refine List.filterMap_eq_nil_iff.mpr fun move hmem => ?_
  cases move with
  | note event => rfl
  | send number call => rfl
  | receive number call reply =>
      cases call with
      | fetch request => exact absurd rfl (h _ hmem)
      | _ => rfl

/-- Where all inquiries were accepted, all records were restored, one answer to
each. -/
theorem Accepted.restores {list : List Record}
    (h : Accepted n (list.map s.reading) moves) :
    List.Forall₂ s.Restores list (fetchedIn moves) := by
  induction list generalizing n moves with
  | nil =>
      rw [h.eq_nil]
      exact .nil
  | cons expected rest ih =>
      rw [List.map_cons] at h
      cases h with
      | accepted _ reply hjudge others =>
          refine .cons ?_ (ih others)
          rcases judgeStored_cases s expected reply with ⟨-, hrestores⟩ |
            ⟨failure, herror, -⟩
          · exact hrestores
          · cases herror.symm.trans hjudge

/-- Where all records were restored, all inquiries were accepted. With its
converse this makes success of a load a statement about answers. -/
theorem Asked.accepted_of_restores {list : List Record}
    {result : Option (Except Failure Unit)}
    (h : Asked n (list.map s.reading) moves result)
    (hall : List.Forall₂ s.Restores list (fetchedIn moves)) :
    result = some (.ok ()) := by
  induction list generalizing n moves with
  | nil =>
      cases h with
      | finished _ => rfl
  | cons expected rest ih =>
      rw [List.map_cons] at h
      cases h with
      | due _ _ _ => cases hall
      | sent _ _ _ => cases hall
      | refused _ _ _ reply failure hjudge =>
          cases hall with
          | cons hfirst _ =>
              rcases judgeStored_cases s expected reply with ⟨hok, -⟩ |
                ⟨other, -, hmisread⟩
              · cases hok.symm.trans hjudge
              · exact absurd hmisread hfirst.not_misread
      | accepted _ reply hjudge others =>
          cases hall with
          | cons _ hrest => exact ih others hrest

end fetches

end KnnOracle
