/-
Noise on a record.

A degree that is no finite number from zero on is refused before anything is
drawn, and one whose noise is too wide when it is needed (`drawable_iff`).
Otherwise every component gets its own noise and is confined to [-1, 1], except
at a degree of zero, which gives the record back. So the result is in the cube
unless the degree is zero and the record was outside of it already
(`perturb_confines`).
-/
import Mathlib
import KnnOracle.Dataset.Synthetic
import KnnOracle.Proofs.Comparison.Extremes
import KnnOracle.Proofs.Dataset.Noise

namespace KnnOracle.Synthetic

open KnnOracle.Random

variable {r : Record} {degree : Float} {s : Stream} {noise : Noise}

-- ============================================================== the cases

/-- The degree of some noise: a number that is finite and not negative. -/
def Admissible (degree : Float) : Prop :=
  degree.isFinite = true ∧ ¬ degree < 0.0

/-- Noise of the degree can be drawn for so many components, because none is
needed or its range is not too wide. -/
def Drawable (degree : Float) (dimension : Nat) : Prop :=
  degree == 0.0 ∨ dimension = 0 ∨ (Noise.ofDegree? degree).isSome

instance (degree : Float) : Decidable (Admissible degree) :=
  inferInstanceAs (Decidable (_ ∧ _))

instance (degree : Float) (dimension : Nat) :
    Decidable (Drawable degree dimension) :=
  inferInstanceAs (Decidable (_ ∨ _ ∨ _))

/-- A degree that is no degree is refused before the stream is touched, so that
the error leaves the generator as it was. -/
theorem perturb_of_not_admissible (h : ¬ Admissible degree) (r : Record)
    (s : Stream) :
    perturb r degree s = (.error (.invalidPerturbation degree), s) := by
  have hrefused : (!degree.isFinite || decide (degree < 0.0)) = true := by
    rw [Bool.or_eq_true, Bool.not_eq_true', decide_eq_true_eq]
    by_cases hfinite : degree.isFinite = true
    · exact .inr (by_contra fun hsign => h ⟨hfinite, hsign⟩)
    · exact .inl (Bool.not_eq_true _ ▸ hfinite)
  rw [perturb, if_pos hrefused]

/-- For any other degree there are three cases: nothing to do, noise that
cannot be drawn, and a draw for each component. -/
private theorem perturb_of_admissible (h : Admissible degree) (r : Record)
    (s : Stream) :
    perturb r degree s =
      if degree == 0.0 || r.values.isEmpty then (.ok r, s)
      else (Noise.ofDegree? degree).elim (.error (.noiseTooWide degree), s)
        fun noise =>
        (.ok ⟨r.id, (addNoise noise [] r.values s).1⟩,
          (addNoise noise [] r.values s).2) := by
  have haccepted : ¬ (!degree.isFinite || decide (degree < 0.0)) = true := by
    rw [Bool.or_eq_true, Bool.not_eq_true', decide_eq_true_eq, h.1]
    rintro (hfinite | hsign)
    · cases hfinite
    · exact h.2 hsign
  rw [perturb, if_neg haccepted]
  cases Noise.ofDegree? degree with
  | none => rfl
  | some noise => rfl

/-- A degree of zero leaves the record as it is, wherever it is. Nothing is
drawn and nothing is confined, and here the general bounds fail. -/
theorem perturb_zero (h : Admissible degree) (hzero : degree == 0.0)
    (r : Record) (s : Stream) :
    perturb r degree s = (.ok r, s) := by
  rw [perturb_of_admissible h, if_pos (Bool.or_eq_true_iff.mpr (.inl hzero))]

/-- Noise that is too wide is found out when it is needed for the first
time. -/
theorem perturb_of_not_drawable (h : Admissible degree)
    (hwide : ¬ Drawable degree r.dimension) (s : Stream) :
    perturb r degree s = (.error (.noiseTooWide degree), s) := by
  rw [Drawable, not_or, not_or, Option.not_isSome_iff_eq_none] at hwide
  obtain ⟨hzero, hdimension, hnone⟩ := hwide
  have hvalues : r.values ≠ [] := fun h => hdimension (congrArg List.length h)
  rw [perturb_of_admissible h, hnone]
  simp [hzero, hvalues]

theorem addNoise_eq (noise : Noise) (acc values : List Float) (s : Stream) :
    ∃ drawn, (addNoise noise acc values s).1 = acc.reverse ++ drawn ∧
      List.Forall₂ (fun v w => ∃ s', w = confine (v + (noise.draw s').1))
        values drawn := by
  induction values generalizing acc s with
  | nil => exact ⟨[], (List.append_nil _).symm, .nil⟩
  | cons v rest ih =>
      obtain ⟨drawn, hdrawn, hall⟩ :=
        ih (confine (v + (noise.draw s).1) :: acc) (noise.draw s).2
      refine ⟨confine (v + (noise.draw s).1) :: drawn, ?_, .cons ⟨s, rfl⟩ hall⟩
      rw [List.reverse_cons, List.append_assoc] at hdrawn
      exact hdrawn

/-- What becomes of a component: it stays at a degree of zero, and otherwise it
is confined with some noise on it. -/
def Perturbed (degree v w : Float) : Prop :=
  if degree == 0.0 then w = v
  else ∃ noise s, Noise.ofDegree? degree = some noise ∧
    w = confine (v + (noise.draw s).1)

/-- What can be drawn is drawn, for every component, and the id stays. This
holds in both cases, of degree zero and of others. -/
theorem perturb_components (h : Admissible degree)
    (hdraw : Drawable degree r.dimension) (s : Stream) :
    ∃ r', (perturb r degree s).1 = .ok r' ∧ r'.id = r.id ∧
      List.Forall₂ (Perturbed degree) r.values r'.values := by
  by_cases hzero : degree == 0.0
  · rw [perturb_zero h hzero]
    refine ⟨r, rfl, rfl, List.forall₂_same.mpr fun v _ => ?_⟩
    rw [Perturbed, if_pos hzero]
  rw [perturb_of_admissible h]
  by_cases hvalues : r.values = []
  · rw [if_pos (Bool.or_eq_true_iff.mpr (.inr (List.isEmpty_iff.mpr hvalues)))]
    exact ⟨r, rfl, rfl, hvalues ▸ .nil⟩
  · have hdimension : r.dimension ≠ 0 :=
      fun h => hvalues (List.length_eq_zero_iff.mp h)
    obtain ⟨noise, hnoise⟩ := Option.isSome_iff_exists.mp
      ((hdraw.resolve_left hzero).resolve_left hdimension)
    obtain ⟨drawn, hdrawn, hall⟩ := addNoise_eq noise [] r.values s
    rw [if_neg (by simp [hzero, hvalues]), hnoise]
    refine ⟨_, rfl, rfl, ?_⟩
    show List.Forall₂ _ _ (addNoise noise [] r.values s).1
    rw [hdrawn]
    refine hall.imp fun v w ⟨s', hw⟩ => ?_
    rw [Perturbed, if_neg hzero]
    exact ⟨noise, s', hnoise, hw⟩

/-- What can be drawn leaves as many components as there were, so that a query
has the dimension of its record. -/
theorem perturb_of_drawable (h : Admissible degree)
    (hdraw : Drawable degree r.dimension) (s : Stream) :
    ∃ r', (perturb r degree s).1 = .ok r' ∧ r'.id = r.id ∧
      r'.dimension = r.dimension := by
  obtain ⟨r', hr', hid, hall⟩ := perturb_components h hdraw s
  exact ⟨r', hr', hid, hall.length_eq.symm⟩

-- ================================================================ the cube

/-- All components are in [-1, 1]. -/
def InCube (r : Record) : Prop := ∀ v ∈ r.values, -1.0 ≤ v ∧ v ≤ 1.0

/-- What is confined is in [-1, 1], if it is a number. A NaN would stay one. -/
theorem confine_bounds {x : Float} (h : x.isNaN = false) :
    -1.0 ≤ confine x ∧ confine x ≤ 1.0 := by
  unfold confine
  by_cases hlow : x < -1.0
  · rw [if_pos hlow]
    decide
  by_cases hhigh : x > 1.0
  · rw [if_neg hlow, if_pos hhigh]
    decide
  · rw [if_neg hlow, if_neg hhigh]
    exact ⟨(not_lt_iff_le (by decide) h).mp hlow,
      (not_lt_iff_le h (by decide)).mp hhigh⟩

/-- Noise can be drawn up to the widest degree, a degree of zero included. An
empty record needs none, whatever the degree. -/
theorem drawable_iff (h : Admissible degree) (dimension : Nat) :
    Drawable degree dimension ↔ dimension = 0 ∨ degree ≤ widestDegree := by
  by_cases hzero : degree == 0.0
  · refine iff_of_true (.inl hzero) (.inr ?_)
    obtain ⟨s, rfl⟩ := eq_zero_of_beq h.1 hzero
    cases s with
    | negative => decide
    | positive => decide
  · obtain ⟨d, hd⟩ := exists_hasSize h.1 h.2 hzero
    rw [Drawable, isSome_ofDegree?_iff hd]
    exact or_iff_right hzero

/-- With noise on it a finite component is in [-1, 1], since it is confined
after the noise was added. -/
theorem Perturbed.bounds {v w : Float} (hp : Perturbed degree v w)
    (h : Admissible degree) (hzero : ¬ degree == 0.0)
    (hv : v.isFinite = true) : -1.0 ≤ w ∧ w ≤ 1.0 := by
  rw [Perturbed, if_neg hzero] at hp
  obtain ⟨noise, s, hnoise, rfl⟩ := hp
  obtain ⟨d, hd⟩ := exists_hasSize h.1 h.2 hzero
  exact confine_bounds
    (isNaN_add (isNaN_of_isFinite hv) (Noise.isNaN_draw hd hnoise s) (.inl hv))

/-- A degree that is a NaN, infinite or negative is refused, and nothing is
drawn. At any other the result is a record in the cube, with the id and as many
components, exactly if the degree is not too wide for what is to be drawn, and
is not zero where the record is outside of the cube. -/
theorem perturb_confines (hfinite : ∀ v ∈ r.values, v.isFinite = true)
    (degree : Float) (s : Stream) :
    (¬ Admissible degree → perturb r degree s
      = (.error (.invalidPerturbation degree), s)) ∧
    (Admissible degree →
      ((∃ r', (perturb r degree s).1 = .ok r' ∧ r'.id = r.id ∧
        r'.dimension = r.dimension ∧ InCube r') ↔
        (r.dimension = 0 ∨ degree ≤ widestDegree) ∧
          (degree == 0.0 → InCube r))) := by
  refine ⟨fun h => perturb_of_not_admissible h r s, fun h => ?_⟩
  rw [← drawable_iff h]
  constructor
  · rintro ⟨r', hr', -, -, hcube⟩
    refine ⟨by_contra fun hwide => ?_, fun hzero => ?_⟩
    · rw [perturb_of_not_drawable h hwide] at hr'
      cases hr'
    · rw [perturb_zero h hzero] at hr'
      cases hr'
      exact hcube
  · rintro ⟨hdraw, hinside⟩
    by_cases hzero : degree == 0.0
    · exact ⟨r, congrArg Prod.fst (perturb_zero h hzero r s), rfl, rfl,
        hinside hzero⟩
    obtain ⟨r', hr', hid, hall⟩ := perturb_components h hdraw s
    have hbounds : List.Forall₂
        (fun w v => (-1.0 ≤ w ∧ w ≤ 1.0) ∧ Perturbed degree v w)
        r'.values r.values :=
      ((List.forall₂_and_left _ _).mpr ⟨hfinite, hall⟩).flip.imp fun w v hp =>
        ⟨hp.2.bounds h hzero hp.1, hp.2⟩
    exact ⟨r', hr', hid, hall.length_eq.symm,
      ((List.forall₂_and_left _ _).mp hbounds).1⟩

-- ------------------------------------------------------------- an instance

/-- Two components, one of which is outside of the cube. -/
theorem perturb_confines_outlier :
    (perturb ⟨⟨5⟩, [2.0, -0.5]⟩ (-0.25) (Stream.ofSeed 1)
      = (.error (.invalidPerturbation (-0.25)), Stream.ofSeed 1)) ∧
    ∃ r', (perturb ⟨⟨5⟩, [2.0, -0.5]⟩ 0.25 (Stream.ofSeed 1)).1 = .ok r' ∧
      r'.id = ⟨5⟩ ∧ r'.dimension = 2 ∧ InCube r' :=
  have hfinite : ∀ v ∈ [2.0, -0.5], Float.isFinite v = true := by decide
  ⟨(@perturb_confines ⟨⟨5⟩, [2.0, -0.5]⟩ hfinite (-0.25) (Stream.ofSeed 1)).1
    (by decide),
    ((@perturb_confines ⟨⟨5⟩, [2.0, -0.5]⟩ hfinite 0.25 (Stream.ofSeed 1)).2
      (by decide)).mpr
      ⟨.inr (by decide), fun hzero => absurd hzero (by decide)⟩⟩

/-- Without noise the outlier stays where it was, and the largest number is a
degree of which no noise can be drawn. -/
theorem perturb_keeps_outlier :
    (Admissible 0.0 ∧ perturb ⟨⟨5⟩, [2.0]⟩ 0.0 (Stream.ofSeed 1)
      = (.ok ⟨⟨5⟩, [2.0]⟩, Stream.ofSeed 1) ∧ ¬ InCube ⟨⟨5⟩, [2.0]⟩) ∧
    (Admissible (Float.ofBits 0x7FEFFFFFFFFFFFFF) ∧
      perturb ⟨⟨5⟩, [0.0]⟩ (Float.ofBits 0x7FEFFFFFFFFFFFFF) (Stream.ofSeed 1)
        = (.error (.noiseTooWide (Float.ofBits 0x7FEFFFFFFFFFFFFF)),
          Stream.ofSeed 1)) := by
  refine ⟨⟨by decide, perturb_zero (by decide) (by decide) _ _,
    fun hcube => ?_⟩, by decide, ?_⟩
  · exact absurd (hcube 2.0 (.head _)).2 (by decide)
  · exact perturb_of_not_drawable (by decide) (by decide) _

end KnnOracle.Synthetic
