/-
Synthetic corpora grow with their counts.

All records of a corpus are drawn in the order of their ids before any of
them is exchanged with another. So a larger corpus of the same seed draws
what the smaller one draws, from the same places of the stream, and then goes
on (`exists_drawRecords`, by induction on the records that are left). The
shuffling behind the draws is a row of exchanges: records change their places
by it, but none is lost and none is changed (`shuffle_perm`).

`corpusOf_grows` says what remains of this when the order of both corpora is
forgotten: the smaller one is what the larger one has of its ids.
-/
import Mathlib
import KnnOracle.Dataset.Synthetic
import KnnOracle.Proofs.Corpus.Making
import KnnOracle.Proofs.Dataset.Uniform

namespace KnnOracle

namespace Random

-- ============================================================== shuffling

variable {α : Type}

private theorem swapIfInBounds_perm (xs : Array α) (i j : Nat) :
    (xs.swapIfInBounds i j).Perm xs := by
  rw [Array.swapIfInBounds_def]
  split
  · split
    · exact Array.swap_perm _ _
    · exact .refl xs
  · exact .refl xs

/-- Exchanges lose nothing, whatever is drawn for them. -/
theorem shuffleFrom_perm (last : Nat) (xs : Array α) (s : Stream) :
    (shuffleFrom last xs s).1.Perm xs := by
  induction last generalizing xs s with
  | zero => exact .refl xs
  | succ last ih =>
      rw [shuffleFrom]
      generalize below (last + 2) s = drawn
      exact (ih _ drawn.2).trans (swapIfInBounds_perm xs _ drawn.1)

private theorem shuffle_perm (xs : List α) (s : Stream) :
    (shuffle xs s).1.Perm xs :=
  Array.perm_iff_toList_perm.mp (shuffleFrom_perm _ xs.toArray s)

end Random

namespace Synthetic

open KnnOracle.Random

-- ================================================================ drawing

/-- As many numbers as are asked for, each of them drawn. The generator never
runs dry, so drawing cannot fail. -/
theorem exists_drawFloats (draw : Stream → Float × Stream) (acc : List Float)
    (count : Nat) (s : Stream) :
    ∃ drawn, (drawFloats draw acc count s).1 = acc.reverse ++ drawn ∧
      drawn.length = count ∧
      ∀ v ∈ drawn, ∃ s', v = (draw s').1 := by
  induction count generalizing acc s with
  | zero => exact ⟨[], (List.append_nil _).symm, rfl, nofun⟩
  | succ count ih =>
      obtain ⟨drawn, hdrawn, hlength, hall⟩ :=
        ih ((draw s).1 :: acc) (draw s).2
      refine ⟨(draw s).1 :: drawn, ?_, congrArg (· + 1) hlength,
        List.forall_mem_cons.mpr ⟨⟨s, rfl⟩, hall⟩⟩
      rw [List.reverse_cons, List.append_assoc] at hdrawn
      exact hdrawn

/-- A record of a dimension whose components are in [-1, 1). -/
structure Uniform (dimension : Nat) (r : Record) : Prop where
  length : r.values.length = dimension
  finite : ∀ v ∈ r.values, v.isFinite = true
  bounds : ∀ v ∈ r.values, -1.0 ≤ v ∧ v < 1.0

/-- A record has as many components as are drawn for it, and each of them is in
the range. -/
private theorem uniform_randomRecord (id : RecordId) (dimension : Nat)
    (s : Stream) :
    Uniform dimension (randomRecord id dimension s).1 := by
  obtain ⟨drawn, hdrawn, hlength, hall⟩ :=
    exists_drawFloats signed [] dimension s
  have hvalues : (randomRecord id dimension s).1.values = drawn := hdrawn
  have hbounds : ∀ v ∈ drawn, v.isFinite = true ∧ -1.0 ≤ v ∧ v < 1.0 := by
    intro v hv
    obtain ⟨s', rfl⟩ := hall v hv
    exact signed_bounds s'
  rw [← hvalues] at hlength hbounds
  exact ⟨hlength, fun v hv => (hbounds v hv).1, fun v hv => (hbounds v hv).2⟩

/-- Records are drawn with consecutive ids, and fewer of them are the first
ones. The state that the generator has reached does not depend on how many are
to come. -/
theorem exists_drawRecords (dimension : Nat) {remaining next : Nat}
    (hroom : next + remaining ≤ 2 ^ 64) (acc : List Record) (s : Stream) :
    ∃ drawn : List Record, drawn.map (fun r => r.id.value.toNat)
      = List.range' next remaining ∧
      (∀ r ∈ drawn, Uniform dimension r) ∧
      ∀ j ≤ remaining, (drawRecords dimension acc next j s).1
        = acc.reverse ++ drawn.take j := by
  induction remaining generalizing next acc s with
  | zero =>
      refine ⟨[], rfl, nofun, fun j hj => ?_⟩
      rw [Nat.le_zero.mp hj, List.take_nil, List.append_nil]
      rfl
  | succ remaining ih =>
      let r := (randomRecord ⟨UInt64.ofNat next⟩ dimension s).1
      obtain ⟨drawn, hids, huniform, hall⟩ :=
        @ih (next + 1) (by omega) (r :: acc)
        (randomRecord ⟨UInt64.ofNat next⟩ dimension s).2
      have hid : r.id.value.toNat = next :=
        UInt64.toNat_ofNat_of_lt' (show next < 2 ^ 64 by omega)
      refine ⟨r :: drawn, ?_,
        List.forall_mem_cons.mpr
          ⟨uniform_randomRecord _ dimension s, huniform⟩, fun j hj => ?_⟩
      · rw [List.map_cons, hid, hids, List.range'_succ]
      · cases j with
        | zero => rw [List.take_zero, List.append_nil]; rfl
        | succ j =>
            have hrest := hall j (by omega)
            rw [List.reverse_cons, List.append_assoc] at hrest
            exact hrest

-- ================================================================ corpora

/-- Synthetic records of a dimension: they have the ids below a number, each
of them once. -/
structure Drawn (dimension count : Nat) (records : List Record) : Prop where
  ids : (records.map fun r => r.id.value.toNat).Perm (List.range count)
  uniform : ∀ r ∈ records, Uniform dimension r

variable {dimension count : Nat} {records : List Record}

/-- Shuffling what was drawn changes none of what is said about it, so that a
shuffled corpus need not be looked at again. -/
theorem Drawn.perm {others : List Record} (h : Drawn dimension count records)
    (hperm : others.Perm records) : Drawn dimension count others where
  ids := (hperm.map _).trans h.ids
  uniform r hr := h.uniform r (hperm.mem_iff.mp hr)

/-- Consecutive ids are different ones, as long as they do not run over the
last word. -/
theorem Drawn.nodup (h : Drawn dimension count records) :
    (records.map fun r => r.id.value.toNat).Nodup :=
  h.ids.nodup_iff.mpr List.nodup_range

/-- Drawn records obey the rules for a corpus, so that making one of them
cannot fail. -/
theorem Drawn.obeys (h : Drawn dimension count records) :
    Corpus.Obeys dimension records where
  dimension r hr := (h.uniform r hr).length
  finite r hr := (h.uniform r hr).finite
  nodup := by
    have hnodup := h.nodup
    rw [← Function.comp_def (fun id : RecordId => id.value.toNat),
      ← List.map_map] at hnodup
    exact .of_map _ hnodup

/-- What is drawn from a stream, up to the shuffling: the records for a
larger count begin with those for a smaller one. -/
theorem exists_generate (dimension : Nat) {m : Nat} (hm : m ≤ 2 ^ 64)
    (s : Stream) :
    ∃ all, Drawn dimension m all ∧ ∀ n ≤ m,
      (generate n dimension s).1.Perm (all.take n) ∧
      Drawn dimension n (all.take n) ∧
      all.take n = all.filter fun r => r.id.value.toNat < n := by
  obtain ⟨all, hids, huniform, hall⟩ :=
    exists_drawRecords dimension (by omega : 0 + m ≤ 2 ^ 64) [] s
  have htake : ∀ n ≤ m, (all.take n).map (fun r => r.id.value.toNat)
      = List.range n := by
    intro n hn
    rw [List.map_take, hids, List.take_range'_of_length_ge hn,
      List.range_eq_range']
  have hdrop : ∀ n, (all.drop n).map (fun r => r.id.value.toNat)
      = List.range' n (m - n) := by
    intro n
    rw [List.map_drop, hids, List.drop_range', Nat.zero_add, Nat.mul_one]
  refine ⟨all, ⟨by rw [hids, List.range_eq_range'], huniform⟩,
    fun n hn => ⟨?_, ?_, ?_⟩⟩
  · have hdrawn : (drawRecords dimension [] 0 n s).1 = all.take n := hall n hn
    rw [← hdrawn]
    exact shuffle_perm _ _
  · exact ⟨by rw [htake n hn],
      fun r hr => huniform r (List.mem_of_mem_take hr)⟩
  · -- in front of the place `n` the ids are below `n`, and behind it not
    have hfront : ∀ r ∈ all.take n, decide (r.id.value.toNat < n) = true := by
      intro r hr
      have hmem :=
        List.mem_map_of_mem (f := fun r : Record => r.id.value.toNat) hr
      rw [htake n hn, List.mem_range] at hmem
      exact decide_eq_true hmem
    have hback : ∀ r ∈ all.drop n, ¬ decide (r.id.value.toNat < n) = true := by
      intro r hr
      have hmem :=
        List.mem_map_of_mem (f := fun r : Record => r.id.value.toNat) hr
      rw [hdrop n, List.mem_range'_1] at hmem
      rw [decide_eq_true_eq]
      omega
    conv_rhs => rw [← List.take_append_drop n all, List.filter_append,
      List.filter_eq_self.mpr hfront, List.filter_eq_nil_iff.mpr hback,
        List.append_nil]

/-- The corpus of a seed has the ids from zero on in some order, so that there
is a corpus of its records, and it is what any larger corpus of the seed has
of these ids: who has the same id has the same components. -/
theorem corpusOf_grows (seed : UInt64) (dimension : Nat) {n m : Nat}
    (hnm : n ≤ m) (hm : m ≤ 2 ^ 64) :
    Drawn dimension n (corpusOf seed n dimension) ∧
    (∃ c, Corpus.make? dimension (corpusOf seed n dimension) = .ok c) ∧
    (corpusOf seed n dimension).Perm
      ((corpusOf seed m dimension).filter fun r => r.id.value.toNat < n) ∧
    ∀ r ∈ corpusOf seed n dimension, ∀ t ∈ corpusOf seed m dimension,
      r.id = t.id → r.values = t.values := by
  obtain ⟨all, hdrawn, hall⟩ :=
    exists_generate dimension hm (Stream.ofSeed seed)
  obtain ⟨hsmaller, hfirst, hfilter⟩ := hall n hnm
  obtain ⟨hlarger, -, hwhole⟩ := hall m le_rfl
  have hrecords : (corpusOf seed n dimension).Perm (all.take n) := hsmaller
  have hrecords' : (corpusOf seed m dimension).Perm all := by
    have hlength : all.length = m := by
      have hcount := hdrawn.ids.length_eq
      rwa [List.length_map, List.length_range] at hcount
    rwa [List.take_of_length_le hlength.le] at hlarger
  have hcorpus := hfirst.perm hrecords
  refine ⟨hcorpus, Corpus.exists_make?_iff.mpr hcorpus.obeys, ?_,
    fun r hr t ht hid => ?_⟩
  · rw [hfilter] at hrecords
    exact hrecords.trans (hrecords'.filter _).symm
  · have hr' : r ∈ all := List.mem_of_mem_take (hrecords.mem_iff.mp hr)
    have ht' : t ∈ all := hrecords'.mem_iff.mp ht
    exact congrArg Record.values (List.inj_on_of_nodup_map hdrawn.nodup hr' ht'
      (congrArg (fun id : RecordId => id.value.toNat) hid))

-- ------------------------------------------------------------- an instance

/-- Two records of a seed, and three of them: the third comes to stand in
front, and the other two change their places, but not their components. -/
theorem corpusOf_grows_by_one :
    (corpusOf 1 2 1).map (fun r => r.id.value.toNat) = [1, 0] ∧
    (corpusOf 1 3 1).map (fun r => r.id.value.toNat) = [2, 0, 1] ∧
    2 ≤ 3 ∧ 3 ≤ 2 ^ 64 ∧ Drawn 1 2 (corpusOf 1 2 1) ∧
    (∃ c, Corpus.make? 1 (corpusOf 1 2 1) = .ok c) ∧
    ∀ r ∈ corpusOf 1 2 1, ∀ t ∈ corpusOf 1 3 1, r.id = t.id →
      r.values = t.values :=
  have ⟨hdrawn, hmade, _, hsame⟩ :=
    @corpusOf_grows 1 1 2 3 (by decide) (by decide)
  ⟨by decide +kernel, by decide +kernel, by decide, by decide, hdrawn,
    hmade, hsame⟩

end Synthetic

end KnnOracle
