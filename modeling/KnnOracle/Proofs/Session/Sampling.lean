/-
The sample that is read back.

Of `n` records that are asked for there are as many as there can be, at the
multiples of one step, from the first record on (`getElem?_sample`). The step
is the length over the number of records, rounded down, so the rest of that
division is left over behind the last record. How long a run of records can
be in which there is none of the sample is therefore told by quotient and rest
together (`covers_samplePositions_iff`): the runs between two records of the
sample are shorter than the step, and the last one is longer by the rest.

# The main statement

`sample_spreads` says how a sample lies in its list. It is as well spread as
so many records can be exactly if the rest is at most one; otherwise the end
of the list is a longer run than there had to be (`sample_misses_tail`).
-/
import Mathlib
import KnnOracle.Session.Load

namespace KnnOracle

variable {α : Type}

-- ===================================================== every n-th element

/-- What is taken is `step` apart, behind what is passed over first. -/
theorem getElem?_everyNth {step : Nat} (hstep : 0 < step) (skip : Nat)
    (list : List α) (i : Nat) :
    (everyNth step skip list)[i]? = list[skip + i * step]? := by
  fun_induction everyNth step skip list generalizing i with
  | case1 => rfl
  | case2 x rest ih =>
      cases i with
      | zero => rw [Nat.zero_mul]; rfl
      | succ i =>
          have hnext : 0 + (i + 1) * step = step - 1 + i * step + 1 := by
            rw [Nat.succ_mul]
            omega
          rw [List.getElem?_cons_succ, ih, hnext, List.getElem?_cons_succ]
  | case3 skip x rest ih =>
      rw [ih, Nat.succ_add, List.getElem?_cons_succ]

private theorem everyNth_sublist (step skip : Nat) (list : List α) :
    (everyNth step skip list).Sublist list := by
  fun_induction everyNth step skip list with
  | case1 => exact List.Sublist.refl _
  | case2 x rest ih => exact ih.cons_cons x
  | case3 skip x rest ih => exact ih.cons x

-- ============================================================= the sample

/-- The positions of a sample: multiples of the length over the number of
elements. -/
def samplePositions (length n : Nat) : List Nat :=
  (List.range (min n length)).map (· * (length / min n length))

private theorem length_samplePositions (length n : Nat) :
    (samplePositions length n).length = min n length := by
  rw [samplePositions, List.length_map, List.length_range]

/-- The last position of a sample of `m` elements is a step and the rest before
the end. -/
theorem last_add_step_add_rest {length m : Nat} (hm : 0 < m) :
    (m - 1) * (length / m) + length / m + length % m = length := by
  have hlast : (m - 1) * (length / m) + length / m = m * (length / m) := by
    rw [← Nat.succ_mul]
    congr 1
    omega
  rw [hlast, Nat.div_add_mod]

theorem lt_length_of_lt_min {length n i : Nat} (hi : i < min n length) :
    i * (length / min n length) < length := by
  have hstep : 0 < length / min n length :=
    Nat.div_pos (Nat.min_le_right _ _) (Nat.zero_lt_of_lt hi)
  have hsplit :=
    @last_add_step_add_rest length (min n length) (Nat.zero_lt_of_lt hi)
  have hle : i * (length / min n length)
      ≤ (min n length - 1) * (length / min n length) :=
    Nat.mul_le_mul_right _ (by omega)
  omega

/-- The record at a place of the sample stands at a multiple of the step, which
is rounded down. -/
private theorem getElem?_sample {list : List α} {n i : Nat}
    (hi : i < min n list.length) :
    (sample list n)[i]? = list[i * (list.length / min n list.length)]? := by
  have hm : 0 < min n list.length := Nat.zero_lt_of_lt hi
  have hstep : 0 < list.length / min n list.length :=
    Nat.div_pos (Nat.min_le_right _ _) hm
  unfold sample
  dsimp only
  rw [List.getElem?_take_of_lt hi, if_neg hm.ne', getElem?_everyNth hstep,
    Nat.zero_add]

/-- There are as many as were asked for, if the list has as many. -/
theorem length_sample (list : List α) (n : Nat) :
    (sample list n).length = min n list.length := by
  apply Nat.le_antisymm
  · unfold sample
    dsimp only
    rw [List.length_take]
    exact Nat.min_le_left _ _
  · by_contra hshort
    have hlast :=
      @getElem?_sample α list n (sample list n).length
        (Nat.lt_of_not_le hshort)
    rw [List.getElem?_eq_none (Nat.le_refl _), eq_comm,
      List.getElem?_eq_none_iff] at hlast
    exact absurd (lt_length_of_lt_min (Nat.lt_of_not_le hshort))
      (Nat.not_lt.mpr hlast)

/-- The sample stands in the list, in the same order. No record is fetched
twice. -/
theorem sample_sublist (list : List α) (n : Nat) :
    (sample list n).Sublist list :=
  (List.take_sublist _ _).trans (everyNth_sublist _ 0 list)

/-- What is sampled is in the list. -/
theorem mem_of_mem_sample {list : List α} {n : Nat} {x : α}
    (h : x ∈ sample list n) : x ∈ list :=
  (sample_sublist list n).subset h

/-- The elements of a sample stand at its positions, so that spreading is a
matter of positions. -/
theorem forall₂_sample (list : List α) (n : Nat) :
    List.Forall₂ (fun x p => list[p]? = some x) (sample list n)
      (samplePositions list.length n) := by
  refine List.forall₂_iff_get.mpr ⟨?_, fun i hi hp => ?_⟩
  · rw [length_sample, length_samplePositions]
  · have hlt : i < min n list.length := by rwa [length_sample] at hi
    simp only [samplePositions, List.get_eq_getElem, List.getElem_map,
      List.getElem_range]
    rw [← getElem?_sample hlt, List.getElem?_eq_getElem hi]

-- ============================================================== coverage

/-- Each run of so many positions of a list holds one of those that are
given. -/
def Covers (length run : Nat) (positions : List Nat) : Prop :=
  ∀ start, start + run ≤ length → ∃ p ∈ positions, start ≤ p ∧ p < start + run

/-- The positions that are picked are the first multiples of the step. -/
private theorem mem_samplePositions {length n p : Nat} :
    p ∈ samplePositions length n ↔
      ∃ i < min n length, i * (length / min n length) = p := by
  simp [samplePositions]

theorem exists_multiple {step m start : Nat} (hstep : 0 < step) (hm : 0 < m)
    (hstart : start ≤ (m - 1) * step) :
    ∃ i < m, start ≤ i * step ∧ i * step < start + step := by
  have hlow : (start + step - 1) / step * step ≤ start + step - 1 :=
    Nat.div_mul_le_self _ _
  have hhigh : start + step - 1 < (start + step - 1) / step * step + step :=
    Nat.lt_div_mul_add hstep
  refine ⟨(start + step - 1) / step, ?_, by omega, by omega⟩
  rw [Nat.div_lt_iff_lt_mul hstep]
  have hlast : m * step = (m - 1) * step + step := by
    rw [← Nat.succ_mul]
    congr 1
    omega
  omega

/-- A run holds an element of the sample if it is as long as step and rest
together, and the last run that is shorter does not. -/
theorem covers_samplePositions_iff {length n : Nat} (hm : 0 < min n length)
    (run : Nat) :
    Covers length run (samplePositions length n) ↔
      length / min n length + length % min n length ≤ run := by
  have hstep : 0 < length / min n length :=
    Nat.div_pos (Nat.min_le_right _ _) hm
  have hsplit := @last_add_step_add_rest length (min n length) hm
  constructor
  · intro hcovers
    by_contra hshort
    obtain ⟨p, hp, hlow, -⟩ := hcovers (length - run) (by omega)
    obtain ⟨i, hi, rfl⟩ := mem_samplePositions.mp hp
    have hle : i * (length / min n length)
        ≤ (min n length - 1) * (length / min n length) :=
      Nat.mul_le_mul_right _ (by omega)
    omega
  · intro hlong start hend
    obtain ⟨i, hi, hlow, hhigh⟩ :=
      @exists_multiple (length / min n length) (min n length) start hstep hm
        (by omega)
    exact ⟨_, mem_samplePositions.mpr ⟨i, hi, rfl⟩, hlow, by omega⟩

theorem ceilDiv_eq_div_add {length m : Nat} (hm : 0 < m) :
    length ⌈/⌉ m = length / m + if length % m = 0 then 0 else 1 := by
  have hrest := Nat.mod_lt length hm
  have hsum : length + m - 1 = m * (length / m) + (length % m + m - 1) := by
    have := Nat.div_add_mod length m
    omega
  rw [Nat.ceilDiv_eq_add_pred_div, hsum, Nat.mul_add_div hm]
  congr 1
  split
  · exact Nat.div_eq_of_lt (by omega)
  · exact Nat.div_eq_of_lt_le (by omega) (by omega)

-- ==================================================== the main statement

/-- How a sample of a list lies in it. -/
structure Spreads (list : List α) (n : Nat) : Prop where
  /-- There are as many elements as were asked for, if there can be. -/
  length_eq : (sample list n).length = min n list.length
  /-- They stand at the positions of the sample. -/
  chosen : List.Forall₂ (fun x p => list[p]? = some x) (sample list n)
    (samplePositions list.length n)
  increasing : (samplePositions list.length n).Pairwise (· < ·)
  first : 0 < min n list.length →
    (samplePositions list.length n).head? = some 0
  /-- How long a run must be so that it holds one of them. -/
  covers_iff : 0 < min n list.length → ∀ run,
    Covers list.length run (samplePositions list.length n) ↔
      list.length / min n list.length + list.length % min n list.length ≤ run
  /-- When the runs that must hold one are as short as they can be for so
  many elements. -/
  even_iff : 0 < min n list.length →
    (Covers list.length (list.length ⌈/⌉ min n list.length)
      (samplePositions list.length n) ↔
      list.length % min n list.length ≤ 1)

/-- For all lists and all sizes of a sample: it has as many elements as it
should and they are a step apart, and it reaches the end of the list exactly
where the rest of the division allows. -/
theorem sample_spreads (list : List α) (n : Nat) : Spreads list n where
  length_eq := length_sample list n
  chosen := forall₂_sample list n
  increasing := by
    refine List.pairwise_map.mpr
      (List.pairwise_lt_range.imp_of_mem fun {i j} hi hj hlt => ?_)
    have hm : 0 < min n list.length := Nat.zero_lt_of_lt (List.mem_range.mp hj)
    exact Nat.mul_lt_mul_of_pos_right hlt
      (Nat.div_pos (Nat.min_le_right _ _) hm)
  first hm := by
    rw [samplePositions, List.head?_map, List.head?_range, if_neg hm.ne',
      Option.map_some, Nat.zero_mul]
  covers_iff hm run := covers_samplePositions_iff hm run
  even_iff hm := by
    rw [covers_samplePositions_iff hm, ceilDiv_eq_div_add hm]
    split <;> omega

-- ------------------------------------------------------------- an instance

/-- Five records of one component. -/
def fiveRecords : List Record :=
  [⟨⟨0⟩, [1.0]⟩, ⟨⟨1⟩, [1.0]⟩, ⟨⟨2⟩, [1.0]⟩, ⟨⟨3⟩, [1.0]⟩, ⟨⟨4⟩, [1.0]⟩]

/-- A sample of three of them are the first three, so that of the last two
records there is none in it, though every two could hold one. -/
theorem sample_misses_tail :
    sample fiveRecords 3 = fiveRecords.take 3 ∧ fiveRecords.length ⌈/⌉ 3 = 2 ∧
    ¬ ∀ start, start + fiveRecords.length ⌈/⌉ 3 ≤ fiveRecords.length →
      ∃ r ∈ (fiveRecords.drop start).take (fiveRecords.length ⌈/⌉ 3),
        r ∈ sample fiveRecords 3 := by
  have hsample : sample fiveRecords 3 = fiveRecords.take 3 := rfl
  have hrun : fiveRecords.length ⌈/⌉ 3 = 2 := ceilDiv_eq_div_add (by decide)
  refine ⟨hsample, hrun, fun hall => ?_⟩
  rw [hrun, hsample] at hall
  obtain ⟨r, htail, hfront⟩ := hall 3 (by decide)
  have hlate : ∀ x ∈ (fiveRecords.drop 3).take 2, 3 ≤ x.id.value := by decide
  have hearly : ∀ x ∈ fiveRecords.take 3, ¬ 3 ≤ x.id.value := by decide
  exact hearly r hfront (hlate r htail)

end KnnOracle
