/-
What reading back promises.

The drift of a stored vector is the largest of its deviations, and a record
is accepted if that is not above the tolerance. So as long as the tolerance
is a number, a drift is accepted exactly if each deviation is
(`not_tolerance_lt_drift_iff`): the deviations of finite vectors are numbers,
and what is read off a response is finite (`isFinite_of_readOff`).

# The main statement

Where a run of reading back comes to an end without a failure, each record of
the sample was stored with as many components, each within the tolerance, and
under a tolerance of at least zero that is all it takes (`readBack_within`).
A NaN as the tolerance is excluded: nothing is above it, so that every vector
of the right length passes (`readBack_passes_nan`).
-/
import Mathlib
import KnnOracle.Proofs.Comparison.Extremes
import KnnOracle.Proofs.Corpus.Making
import KnnOracle.Proofs.Json.Grammar
import KnnOracle.Proofs.Session.ReadBack
import KnnOracle.Proofs.Wire.FixedPoint

namespace KnnOracle

-- ============================================================== the drift

/-- As many components, and none of them too far away. -/
def Within (tolerance : Float) (expected stored : List Float) : Prop :=
  List.Forall₂ (fun a b => (a - b).abs ≤ tolerance) expected stored

/-- The deviations of two vectors, component by component. -/
def deviations (expected stored : List Float) : List Float :=
  (expected.zip stored).map fun p => (p.1 - p.2).abs

/-- The drift is the largest of the deviations, and zero if there are none. -/
private theorem drift_eq (expected stored : List Float) :
    drift expected stored = (deviations expected stored).foldl larger 0.0 := by
  rw [drift, deviations, List.foldl_map]

/-- Where both records are finite, every deviation is a number. Comparing with
a tolerance makes sense for such ones only. -/
private theorem isNaN_of_mem_deviations {expected stored : List Float}
    (hexpected : ∀ v ∈ expected, v.isFinite = true)
    (hstored : ∀ v ∈ stored, v.isFinite = true) :
    ∀ x ∈ deviations expected stored, x.isNaN = false := by
  intro x hx
  obtain ⟨⟨a, b⟩, hpair, rfl⟩ := List.mem_map.mp hx
  obtain ⟨ha, hb⟩ := List.of_mem_zip hpair
  exact isNaN_abs (isNaN_sub (hexpected a ha) (hstored b hb))

/-- A stored record is within a tolerance if it has the length of the expected
one and no component deviates by more. -/
private theorem within_iff {tolerance : Float} {expected stored : List Float} :
    Within tolerance expected stored ↔
      expected.length = stored.length ∧
        ∀ x ∈ deviations expected stored, x ≤ tolerance := by
  unfold Within deviations
  rw [List.forall₂_iff_zip, List.forall_mem_map, Prod.forall]

/-- A drift is accepted if zero is and each deviation is. The test of the
program is the negation of a comparison, which a NaN passes; the hypothesis
keeps it out. -/
theorem not_tolerance_lt_drift_iff {tolerance : Float}
    {expected stored : List Float} (htolerance : tolerance.isNaN = false)
    (hnumbers : ∀ x ∈ deviations expected stored, x.isNaN = false) :
    ¬ drift expected stored > tolerance ↔
      0.0 ≤ tolerance ∧ ∀ x ∈ deviations expected stored, x ≤ tolerance := by
  have hzero : (0.0 : Float).isNaN = false := by decide
  have hlt : drift expected stored > tolerance ↔
      standing tolerance < standing (drift expected stored) :=
    lt_iff_standing_lt.trans (and_iff_right htolerance)
  rw [hlt, not_lt, drift_eq, standing_foldl_larger_le_iff, le_iff_standing_le,
    and_iff_right hzero]
  refine and_congr_right fun _ => forall₂_congr fun x hx => ?_
  rw [le_iff_standing_le, and_iff_right (hnumbers x hx)]

-- ============================================================ the replies

/-- A record in a reply was read off a response to the request. -/
def ReadOff (answer : FetchRequest × Except CallError Record) : Prop :=
  ∀ stored, answer.2 = .ok stored →
    ∃ response, Http.Client.reply (.fetch answer.1) response = .ok stored

theorem isFinite_of_floatsOfJson? {t : Json.Tree} {values : List Float}
    (h : floatsOfJson? t = some values) : ∀ v ∈ values, v.isFinite = true := by
  intro v hv
  cases t with
  | array items =>
      obtain ⟨item, hitem⟩ := Json.exists_of_mapM h v hv
      exact Json.isFinite_of_tree_float? hitem
  | _ => cases h

/-- A record that is read has finite components, so a NaN cannot come from the
service. It can only come from the tolerance. -/
theorem isFinite_of_record_ofJson? {t : Json.Tree} {r : Record}
    (h : Record.ofJson? t = some r) :
    ∀ v ∈ r.values, v.isFinite = true := by
  unfold Record.ofJson? at h
  split at h
  · simp only [Option.bind_eq_bind, Option.bind_eq_some_iff, Option.some.injEq]
      at h
    obtain ⟨id, -, values, hvalues, rfl⟩ := h
    exact isFinite_of_floatsOfJson? hvalues
  · cases h

/-- The reply to a fetch, read off the body of a response that is no
refusal. -/
theorem reply_fetch (request : FetchRequest) (response : Http.Response) :
    Http.Client.reply (.fetch request) response
      = if response.isSuccess then
        Http.Client.decoded Record.ofJson? response.body
        else .error (.rejected (Call.fetch request).action response.status
          (Http.Client.bodyText response.body)) := rfl

private theorem isFinite_of_readOff
    {answer : FetchRequest × Except CallError Record} {stored : Record}
    (h : ReadOff answer) (hstored : answer.2 = .ok stored) :
    ∀ v ∈ stored.values, v.isFinite = true := by
  obtain ⟨response, hreply⟩ := h stored hstored
  rw [reply_fetch] at hreply
  split at hreply
  · unfold Http.Client.decoded Json.decode? at hreply
    split at hreply
    · next r hread =>
        cases hreply
        obtain ⟨t, -, ht⟩ := Option.bind_eq_some_iff.mp hread
        exact isFinite_of_record_ofJson? ht
    · cases hreply
  · cases hreply

/-- A record of finite components is read off its own form. -/
theorem readOff_ok (request : FetchRequest) {stored : Record}
    (h : ∀ v ∈ stored.values, v.isFinite = true) :
    ReadOff (request, .ok stored) := by
  rintro _ ⟨⟩
  refine ⟨⟨200, stored.toJson.render⟩, ?_⟩
  have hsuccess : Http.Response.isSuccess ⟨200, stored.toJson.render⟩ = true :=
    rfl
  rw [reply_fetch, if_pos hsuccess, Http.Client.decoded, Json.decode?_render,
    ofJson?_record h]

private theorem fetchedIn_talkIn (moves : List Move) :
    fetchedIn (talkIn moves) = fetchedIn moves := by
  induction moves with
  | nil => rfl
  | cons move rest ih =>
      cases move with
      | note event => exact ih
      | send number call => exact ih
      | receive number call reply =>
          show fetchedIn (_ :: talkIn rest) = _
          unfold fetchedIn at ih ⊢
          rw [List.filterMap_cons, List.filterMap_cons, ih]

-- ================================================== the main statement

/-- The record was asked for, and is stored within the tolerance. -/
def Settings.Returns (s : Settings) (expected : Record)
    (answer : FetchRequest × Except CallError Record) : Prop :=
  answer.1 = ⟨s.collection, expected.id⟩ ∧
  ∃ stored, answer.2 = .ok stored ∧
    Within s.tolerance expected.values stored.values

section main

variable {s : Settings}

/-- A reply is accepted if zero is within the tolerance and all components are.
A negative tolerance accepts nothing. -/
theorem restores_iff {expected : Record}
    {answer : FetchRequest × Except CallError Record}
    (htolerance : s.tolerance.isNaN = false)
    (hexpected : ∀ v ∈ expected.values, v.isFinite = true)
    (hread : ReadOff answer) :
    s.Restores expected answer ↔ 0.0 ≤ s.tolerance ∧
      s.Returns expected answer := by
  constructor
  · rintro ⟨hrequest, stored, hstored, hdimension, hdrift⟩
    have hnumbers :=
      isNaN_of_mem_deviations hexpected (isFinite_of_readOff hread hstored)
    obtain ⟨hzero, hall⟩ :=
      (not_tolerance_lt_drift_iff htolerance hnumbers).mp hdrift
    exact ⟨hzero, hrequest, stored, hstored,
      within_iff.mpr ⟨hdimension.symm, hall⟩⟩
  · rintro ⟨hzero, hrequest, stored, hstored, hwithin⟩
    have hnumbers :=
      isNaN_of_mem_deviations hexpected (isFinite_of_readOff hread hstored)
    obtain ⟨hlength, hall⟩ := within_iff.mp hwithin
    exact ⟨hrequest, stored, hstored, hlength.symm,
      (not_tolerance_lt_drift_iff htolerance hnumbers).mpr ⟨hzero, hall⟩⟩

/-- For a tolerance that is a number, each record is restored exactly if it is
returned within the tolerance. A NaN would let every record pass. -/
private theorem forall₂_restores_iff {list : List Record}
    {answers : List (FetchRequest × Except CallError Record)}
    (htolerance : s.tolerance.isNaN = false)
    (hfinite : ∀ r ∈ list, ∀ v ∈ r.values, v.isFinite = true)
    (hread : ∀ answer ∈ answers, ReadOff answer) :
    List.Forall₂ s.Restores list answers ↔
      List.Forall₂ (fun expected answer => 0.0 ≤ s.tolerance ∧
        s.Returns expected answer)
        list answers := by
  have hpair : ∀ {expected answer}, (expected, answer) ∈ list.zip answers →
      (s.Restores expected answer ↔ 0.0 ≤ s.tolerance ∧
        s.Returns expected answer) :=
    fun hmem => restores_iff htolerance (hfinite _ (List.of_mem_zip hmem).1)
      (hread _ (List.of_mem_zip hmem).2)
  rw [List.forall₂_iff_zip, List.forall₂_iff_zip]
  exact and_congr_right fun _ =>
    ⟨fun h _ _ hmem => (hpair hmem).mp (h hmem),
      fun h _ _ hmem => (hpair hmem).mpr (h hmem)⟩

/-- Under a tolerance that is a number, reading back ends well only if every
record of the sample was stored with as many components, each within the
tolerance; and if it is not negative, then reading back ends well if they
were. -/
theorem readBack_within {corpus : Corpus} {n m : Nat} {moves : List Move}
    {result : Except Failure Unit} (htolerance : s.tolerance.isNaN = false)
    (hpath :
      Exchange.Path ⟨.ready (readBack s (sample corpus.records s.readback)), n⟩
        moves ⟨.ready (.done result), m⟩)
    (hread : ∀ answer ∈ fetchedIn moves, ReadOff answer) :
    (result = .ok () →
      List.Forall₂ s.Returns (sample corpus.records s.readback)
        (fetchedIn moves)) ∧
    (0.0 ≤ s.tolerance →
      List.Forall₂ s.Returns (sample corpus.records s.readback)
        (fetchedIn moves) →
      result = .ok ()) := by
  have hfinite : ∀ r ∈ sample corpus.records s.readback, ∀ v ∈ r.values,
      v.isFinite = true :=
    fun r hr => Corpus.firstNonFinite?_eq_none_iff.mp
      (corpus.finite r ((sample_sublist corpus.records s.readback).subset hr))
  rw [readBack_eq] at hpath
  have hasked := (Exchange.path_askAll hpath).1
  change Asked n _ _ (some result) at hasked
  have hrestores := forall₂_restores_iff htolerance hfinite hread
  rw [← fetchedIn_talkIn] at hrestores ⊢
  constructor
  · rintro rfl
    exact (hrestores.mp (Accepted.restores hasked)).imp fun _ _ h => h.2
  · intro hzero hreturned
    have hrestored := hrestores.mpr (hreturned.imp fun _ _ h => ⟨hzero, h⟩)
    exact Option.some.inj (hasked.accepted_of_restores hrestored)

end main

-- ---------------------------------------------------------- two instances

/-- A corpus of one record. -/
def axis : Corpus :=
  { records := [⟨⟨0⟩, [0.0, 1.0]⟩]
    dimension := 2
    dimension_eq := by decide
    finite := by decide
    nodup := by decide }

/-- Settings under which its record is read back. -/
def axisSettings (tolerance : Float) : Settings :=
  { dimension := 2
    readback := 1
    tolerance }

/-- What is said when a record is stored in its place. -/
def axisMoves (tolerance : Float) (stored : Record) : List Move :=
  [.send 0 ((axisSettings tolerance).fetching ⟨⟨0⟩, [0.0, 1.0]⟩),
    .receive 0 ((axisSettings tolerance).fetching ⟨⟨0⟩, [0.0, 1.0]⟩)
      (.ok stored)]

/-- A load of one record reads it back and is content with whatever passes the
check. -/
private theorem path_axisMoves (tolerance : Float) (stored : Record)
    (h : checkStored tolerance ⟨⟨0⟩, [0.0, 1.0]⟩ stored = .ok ()) :
    Exchange.Path
      ⟨.ready (readBack (axisSettings tolerance) (sample axis.records 1)), 0⟩
      (axisMoves tolerance stored) ⟨.ready (.done (.ok ())), 1⟩ := by
  refine .step (.ask _ _ 0) ?_
  refine .step
    (.answer 0 ((axisSettings tolerance).fetching ⟨⟨0⟩, [0.0, 1.0]⟩) _ 1
      (.ok stored)) ?_
  have hjudge : checkStored (axisSettings tolerance).tolerance
      ⟨⟨0⟩, [0.0, 1.0]⟩ stored
      = .ok () := h
  dsimp only
  rw [hjudge]
  exact .refl _

/-- A record that deviates a little is accepted, and lies within the
tolerance. -/
theorem readBack_within_axis :
    (axisSettings 0.01).tolerance.isNaN = false ∧
    Exchange.Path
      ⟨.ready (readBack (axisSettings 0.01) (sample axis.records 1)), 0⟩
      (axisMoves 0.01 ⟨⟨0⟩, [0.005, 1.0]⟩) ⟨.ready (.done (.ok ())), 1⟩ ∧
    (∀ answer ∈ fetchedIn (axisMoves 0.01 ⟨⟨0⟩, [0.005, 1.0]⟩),
      ReadOff answer) ∧
    List.Forall₂ (axisSettings 0.01).Returns (sample axis.records 1)
      (fetchedIn (axisMoves 0.01 ⟨⟨0⟩, [0.005, 1.0]⟩)) := by
  have hnumber : (axisSettings 0.01).tolerance.isNaN = false := by decide
  have hpath :=
    path_axisMoves 0.01 ⟨⟨0⟩, [0.005, 1.0]⟩ (eq_ok_of_toOption (by decide))
  have hread : ∀ answer ∈ fetchedIn (axisMoves 0.01 ⟨⟨0⟩, [0.005, 1.0]⟩),
      ReadOff answer := by
    intro answer hanswer
    cases List.mem_singleton.mp hanswer
    exact readOff_ok _ (by decide)
  exact ⟨hnumber, hpath, hread,
    (readBack_within hnumber hpath hread).1 rfl⟩

/-- Under a NaN as the tolerance a record is accepted in the place of quite
another one. -/
theorem readBack_passes_nan :
    Exchange.Path
      ⟨.ready (readBack (axisSettings (0.0 / 0.0)) (sample axis.records 1)), 0⟩
      (axisMoves (0.0 / 0.0) ⟨⟨0⟩, [5.0, 1.0]⟩) ⟨.ready (.done (.ok ())), 1⟩ ∧
    (∀ answer ∈ fetchedIn (axisMoves (0.0 / 0.0) ⟨⟨0⟩, [5.0, 1.0]⟩),
      ReadOff answer) ∧
    ¬ List.Forall₂ (axisSettings (0.0 / 0.0)).Returns (sample axis.records 1)
      (fetchedIn (axisMoves (0.0 / 0.0) ⟨⟨0⟩, [5.0, 1.0]⟩)) := by
  refine ⟨path_axisMoves _ _ (eq_ok_of_toOption (by decide)), ?_, ?_⟩
  · intro answer hanswer
    cases List.mem_singleton.mp hanswer
    exact readOff_ok _ (by decide)
  · intro hall
    cases hall with
    | cons hfirst _ =>
        obtain ⟨-, stored, hstored, hwithin⟩ := hfirst
        cases hstored
        cases hwithin with
        | cons hcomponent _ =>
            revert hcomponent
            decide

end KnnOracle
