/-
The order of a corpus decides ties, and nothing else.

The records of a corpus in another order are a corpus too, since the rules
for its records do not ask for an order (`Obeys.perm`). What is refused is
refused in either order: the query for its own sake (`admit?_of_perm`), and
otherwise for some record that cannot be scored, though not for the same
one. Where both answer, each has scored the same records, in its own order
(`exists_scoreAll_of_perm`), so the answers are two cut rankings of the same
neighbors.
-/
import Mathlib.Data.List.Perm.Basic
import KnnOracle.Proofs.Corpus.Making
import KnnOracle.Proofs.Ranking.Ties

namespace KnnOracle

open Neighbor (TiesOnly tiesOnly_take_rank)

variable {scoring : Scoring}

/-- Records in another order are scored alike. A score depends on the query and
the record, and on nothing that was scored before. -/
theorem exists_scoreAll_of_perm {query : List Float}
    {records others : List Record} {scored : List Neighbor}
    (hperm : others.Perm records)
    (h : scoreAll scoring query records = .ok scored) :
    ∃ other, scoreAll scoring query others = .ok other ∧
      other.Perm scored := by
  obtain ⟨other, hother, hsame⟩ :=
    List.perm_comp_forall₂ hperm (scoreAll_eq_ok_iff.mp h)
  exact ⟨other, scoreAll_eq_ok_iff.mpr hother, hsame⟩

namespace Corpus

/-- None of the rules of a corpus looks at the order of the records, so a
corpus can be made of them in any order. -/
theorem Obeys.perm {dimension : Nat} {records others : List Record}
    (h : Obeys dimension records) (hperm : others.Perm records) :
    Obeys dimension others where
  dimension r hr := h.dimension r (hperm.mem_iff.mp hr)
  finite r hr := h.finite r (hperm.mem_iff.mp hr)
  nodup := (hperm.map Record.id).nodup_iff.mpr h.nodup

variable {c d : Corpus} {query : Record} {k : Nat}

/-- Records have one dimension, if there are any, and a corpus takes it from
the first of them. -/
theorem dimension_of_perm (hperm : d.records.Perm c.records)
    (hsome : c.isEmpty = false) :
    d.dimension = c.dimension := by
  rw [isEmpty, List.isEmpty_eq_false_iff_exists_mem] at hsome
  obtain ⟨r, hr⟩ := hsome
  rw [← c.dimension_eq r hr, ← d.dimension_eq r (hperm.mem_iff.mpr hr)]

/-- A query is admitted or refused in either order, for the same reason: it is
held against the dimension only. -/
theorem admit?_of_perm (hperm : d.records.Perm c.records) :
    d.admit? query = c.admit? query := by
  have hempty : d.isEmpty = c.isEmpty := hperm.isEmpty_eq
  unfold admit?
  rw [hempty]
  cases hsome : c.isEmpty with
  | true => rfl
  | false => rw [dimension_of_perm hperm hsome]

/-- Where one order answers, the other one does, with what it ranks of the same
neighbors. That ties may be cut differently is left to the laws of ranking. -/
theorem exists_searchWith_of_perm {answer : List Neighbor}
    (hperm : d.records.Perm c.records)
    (h : c.searchWith scoring query k = .ok answer) :
    ∃ scored other, (scored.map Neighbor.id).Nodup ∧ scored.Perm other ∧
      answer = (Neighbor.rank scored).take k ∧
      d.searchWith scoring query k = .ok ((Neighbor.rank other).take k) := by
  obtain ⟨hquery, scored, hscored, hanswer⟩ := searchWith_eq_ok_iff.mp h
  obtain ⟨other, hother, hsame⟩ := exists_scoreAll_of_perm hperm hscored
  have hids : (scored.map Neighbor.id).Nodup := by
    rw [ids_of_scoreAll hscored]
    exact c.nodup
  exact ⟨scored, other, hids, hsame.symm, hanswer,
    searchWith_of_scored ((admit?_of_perm hperm).trans hquery) hother k⟩

/-- The records of a corpus make a corpus in any order, and whatever is
searched for, in whatever corpus of these records: it is found in both or in
neither, and the answers differ in ties only. -/
theorem searchWith_reordered (c : Corpus) {records : List Record}
    (hperm : records.Perm c.records) :
    (∃ d, make? c.dimension records = .ok d) ∧
    ∀ d : Corpus, d.records = records →
      ∀ (scoring : Scoring) (query : Record) (k : Nat),
      ((∃ a, c.searchWith scoring query k = .ok a) ↔
        ∃ b, d.searchWith scoring query k = .ok b) ∧
      ∀ a b, c.searchWith scoring query k = .ok a →
        d.searchWith scoring query k = .ok b →
        TiesOnly a b := by
  constructor
  · exact exists_make?_iff.mpr
      ((exists_make?_iff.mp ⟨c, make?_records c⟩).perm hperm)
  · rintro d rfl scoring query k
    refine ⟨⟨?_, ?_⟩, ?_⟩
    · rintro ⟨a, ha⟩
      obtain ⟨_, _, _, _, _, hb⟩ := exists_searchWith_of_perm hperm ha
      exact ⟨_, hb⟩
    · rintro ⟨b, hb⟩
      obtain ⟨_, _, _, _, _, ha⟩ := exists_searchWith_of_perm hperm.symm hb
      exact ⟨_, ha⟩
    · intro a b ha hb
      obtain ⟨scored, other, hids, hsame, rfl, hother⟩ :=
        exists_searchWith_of_perm hperm ha
      rw [hother] at hb
      cases hb
      exact tiesOnly_take_rank hsame hids k

-- ------------------------------------------------------------ an instance

/-- The four vectors from the last to the first. -/
def fourReversed : Corpus :=
  { records := fourVectors.records.reverse
    dimension := 1
    dimension_eq := by decide
    finite := by decide
    nodup := by decide }

/-- The best three in two orders, with ties before, across and after the
cut: the first two are exchanged, and the third is another. -/
theorem searchWith_reordered_of_ties :
    fourReversed.records.Perm fourVectors.records ∧
    ∃ a b, fourVectors.searchWith coarse ⟨⟨1⟩, [1.0]⟩ 3 = .ok a ∧
      fourReversed.searchWith coarse ⟨⟨1⟩, [1.0]⟩ 3 = .ok b ∧
      a.map Neighbor.id = [⟨4⟩, ⟨2⟩, ⟨7⟩] ∧
      b.map Neighbor.id = [⟨2⟩, ⟨4⟩, ⟨9⟩] ∧
      TiesOnly a b := by
  let high : Score := ⟨0x7FF8000000000000⟩
  let low : Score := ⟨0x8000000000000000⟩
  have hperm : fourReversed.records.Perm fourVectors.records :=
    List.reverse_perm _
  have hquery : fourVectors.admit? ⟨⟨1⟩, [1.0]⟩ = .ok () :=
    eq_ok_of_toOption (by decide +kernel)
  have hfirst : scoreAll coarse [1.0] fourVectors.records
      = .ok [⟨⟨7⟩, low⟩, ⟨⟨9⟩, low⟩, ⟨⟨4⟩, high⟩, ⟨⟨2⟩, high⟩] := rfl
  have hsecond : scoreAll coarse [1.0] fourReversed.records
      = .ok [⟨⟨2⟩, high⟩, ⟨⟨4⟩, high⟩, ⟨⟨9⟩, low⟩, ⟨⟨7⟩, low⟩] := rfl
  have hrank : Neighbor.rank [⟨⟨7⟩, low⟩, ⟨⟨9⟩, low⟩, ⟨⟨4⟩, high⟩, ⟨⟨2⟩, high⟩]
      = [⟨⟨4⟩, high⟩, ⟨⟨2⟩, high⟩, ⟨⟨7⟩, low⟩, ⟨⟨9⟩, low⟩] := by
    cbv
  have hkept : Neighbor.rank [⟨⟨2⟩, high⟩, ⟨⟨4⟩, high⟩, ⟨⟨9⟩, low⟩, ⟨⟨7⟩, low⟩]
      = [⟨⟨2⟩, high⟩, ⟨⟨4⟩, high⟩, ⟨⟨9⟩, low⟩, ⟨⟨7⟩, low⟩] :=
    List.mergeSort_of_pairwise (by decide)
  have ha := searchWith_of_scored hquery hfirst 3
  have hb :=
    searchWith_of_scored ((admit?_of_perm hperm).trans hquery) hsecond 3
  rw [hrank] at ha
  rw [hkept] at hb
  exact ⟨hperm, _, _, ha, hb, rfl, rfl,
    ((searchWith_reordered fourVectors hperm).2 fourReversed rfl coarse _ 3).2
      _ _ ha hb⟩

end Corpus

end KnnOracle
