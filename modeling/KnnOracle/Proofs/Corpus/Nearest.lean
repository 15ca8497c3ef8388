/-
The answer of a search is exactly the best `k`.

A search scores every record, ranks what it scored and cuts the ranking.
This file says what comes out of that without any of the three steps: no
sorting and no cutting occurs in `Nearest`, only positions of records,
their scores, and the order `Neighbor.Ahead`.

# The specification

`Nearest scoring query records k answer positions`: the entries of the
answer are the records at the positions, with the scores that these
records have; no position occurs twice; there are as many entries as were
asked for, or as there are records; each entry is ahead of every later
one; and a record at any other position has a score, by which it is
behind every entry. `Nearest.take` cuts an answer down to a shorter one.

# The route

`scoreAll` is an elementwise relation (`scoreAll_eq_ok_iff`), so the
numbered list of scored records knows for each number the record and its
score. `Neighbor.exists_places_of_rank` puts that list in order; the
answer is its first `k` entries, and what is cut off is behind them
because the whole list is pairwise in order.

The scoring is any function of two vectors: nothing here depends on what
a score means, nor on whether it is a number.
-/
import Mathlib.Data.List.Forall2
import Mathlib.Data.List.Permutation
import KnnOracle.Corpus.Search
import KnnOracle.Proofs.Ranking.Places

namespace KnnOracle

-- ===================================================== making a corpus

namespace Corpus

/-- A corpus is made of all records, as they come. -/
theorem records_of_make? {dimension : Nat} {records : List Record} {c : Corpus}
    (h : make? dimension records = .ok c) :
    c.records = records ∧ c.dimension = dimension := by
  unfold make? at h
  split at h
  · cases h
  · cases h
    exact ⟨rfl, rfl⟩

/-- The records of a corpus make it again: whatever is shown of making holds of
every corpus there is. -/
theorem make?_records (c : Corpus) : make? c.dimension c.records = .ok c := by
  have hregister : register c.dimension ∅ ∅ 0 c.records = .ok c.positions :=
    register_eq_ok_iff.mpr ⟨fun r hr => ⟨c.dimension_eq r hr, c.finite r hr,
      Std.HashSet.contains_empty⟩, c.nodup, c.positions_eq⟩
  unfold make?
  split
  · next fault h =>
      rw [h] at hregister
      cases hregister
  · next positions h =>
      rw [h] at hregister
      cases hregister
      rfl

/-- The position of an id is that of the record with the id. The index was
filled once per record, so this is what its construction comes to. -/
theorem position?_eq_some_iff {c : Corpus} {id : RecordId} {p : Nat} :
    c.position? id = some p ↔ ∃ r, c.records[p]? = some r ∧ r.id = id := by
  rw [position?, c.positions_eq]
  exact Positions.getElem?_ofRecords c.nodup

/-- A record is found by an id exactly if it is there and has the id. -/
theorem get?_eq_some_iff {c : Corpus} {id : RecordId} {r : Record} :
    c.get? id = some r ↔ r ∈ c.records ∧ r.id = id := by
  rw [get?, Option.bind_eq_some_iff]
  constructor
  · intro ⟨p, hp, hr⟩
    obtain ⟨r', hr', hid⟩ := position?_eq_some_iff.mp hp
    rw [hr] at hr'
    cases hr'
    exact ⟨List.mem_of_getElem? hr, hid⟩
  · intro ⟨hmem, hid⟩
    obtain ⟨p, hp⟩ := List.mem_iff_getElem?.mp hmem
    exact ⟨p, position?_eq_some_iff.mpr ⟨r, hp, hid⟩, hp⟩

/-- No id comes twice, so a record is found under its id. -/
private theorem get?_eq_some_of_mem {c : Corpus} {r : Record}
    (hr : r ∈ c.records) :
    c.get? r.id = some r :=
  get?_eq_some_iff.mpr ⟨hr, rfl⟩

end Corpus

-- ================================================== the specification

/-- The answer holds the best `k` of some records under a scoring; its
entries come from the records at the given positions. -/
structure Nearest (scoring : Scoring) (query : List Float)
    (records : List Record) (k : Nat) (answer : List Neighbor)
    (positions : List Nat) : Prop where
  /-- There are as many entries as were asked for, unless there are fewer
  records. -/
  length_eq : answer.length = min k records.length
  /-- No record gives two entries. -/
  nodup : positions.Nodup
  /-- Each entry is the record at its position, with that record's score. -/
  entry : List.Forall₂
    (fun n p => ∃ r s, records[p]? = some r ∧ scoring query r.values = .ok s ∧
      n = ⟨r.id, s⟩)
    answer positions
  /-- Each entry is ahead of every later one. -/
  ordered : (answer.zip positions).Pairwise Neighbor.Ahead
  /-- No other record could stand before any entry. -/
  behind : ∀ p r, records[p]? = some r → p ∉ positions →
    ∃ s, scoring query r.values = .ok s ∧
      ∀ e ∈ answer.zip positions, Neighbor.Ahead e (⟨r.id, s⟩, p)

-- ==================================================== the scored records

section scored

variable {scoring : Scoring} {query : List Float}

/-- A record is scored under its own id, which lets a neighbor be traced back
to its record. -/
theorem Record.scoreWith_eq_ok_iff {r : Record} {n : Neighbor} :
    r.scoreWith scoring query = .ok n ↔
      ∃ s, scoring query r.values = .ok s ∧ n = ⟨r.id, s⟩ := by
  unfold Record.scoreWith
  cases scoring query r.values with
  | error e =>
      constructor
      · intro h
        cases h
      · rintro ⟨s, h, -⟩
        cases h
  | ok s =>
      constructor
      · intro h
        cases h
        exact ⟨s, rfl, rfl⟩
      · rintro ⟨t, h, rfl⟩
        cases h
        rfl

/-- All records are scored exactly if each one is, in the same order. One
record without a score is enough to fail the search. -/
theorem scoreAll_eq_ok_iff {records : List Record} {scored : List Neighbor} :
    scoreAll scoring query records = .ok scored ↔
      List.Forall₂ (fun r n => r.scoreWith scoring query = .ok n) records
        scored := by
  induction records generalizing scored with
  | nil =>
      rw [List.forall₂_nil_left_iff, scoreAll]
      constructor
      · intro h
        cases h
        rfl
      · intro h
        rw [h]
  | cons r rest ih =>
      rw [scoreAll]
      cases hr : r.scoreWith scoring query with
      | error e =>
          constructor
          · intro h
            cases h
          · intro h
            cases h with
            | cons hn _ => rw [hr] at hn; cases hn
      | ok n =>
          constructor
          · intro h
            cases hrest : scoreAll scoring query rest with
            | error e =>
                rw [hrest] at h
                cases h
            | ok ns =>
                rw [hrest] at h
                cases h
                exact List.Forall₂.cons hr (ih.mp hrest)
          · intro h
            cases h with
            | cons hn hns =>
                rw [hr] at hn
                cases hn
                rw [ih.mpr hns]

/-- Scoring keeps the ids, so that neighbors are as distinct as records are. -/
theorem ids_of_scoreAll {records : List Record} {scored : List Neighbor}
    (h : scoreAll scoring query records = .ok scored) :
    scored.map Neighbor.id = records.map Record.id := by
  rw [← List.forall₂_eq_eq_eq, List.forall₂_map_left_iff,
    List.forall₂_map_right_iff]
  refine (scoreAll_eq_ok_iff.mp h).flip.imp fun n r hn => ?_
  obtain ⟨s, -, rfl⟩ := Record.scoreWith_eq_ok_iff.mp hn
  rfl

/-- A position of the scored list is the position of a record, and the
entry there is that record with its score. -/
theorem exists_record_of_scored {records : List Record}
    {scored : List Neighbor} (h : scoreAll scoring query records = .ok scored)
    {p : Nat} {n : Neighbor} (hn : scored[p]? = some n) :
    ∃ r s, records[p]? = some r ∧ scoring query r.values = .ok s ∧
      n = ⟨r.id, s⟩ := by
  have hall := scoreAll_eq_ok_iff.mp h
  obtain ⟨hp, rfl⟩ := List.getElem?_eq_some_iff.mp hn
  have hp' : p < records.length := by
    rw [hall.length_eq]
    exact hp
  obtain ⟨s, hs, heq⟩ := Record.scoreWith_eq_ok_iff.mp (hall.get hp' hp)
  exact ⟨records[p], s, List.getElem?_eq_getElem hp', hs, heq⟩

private theorem exists_scored_of_record {records : List Record}
    {scored : List Neighbor} (h : scoreAll scoring query records = .ok scored)
    {p : Nat} {r : Record} (hr : records[p]? = some r) :
    ∃ s, scoring query r.values = .ok s ∧ scored[p]? = some ⟨r.id, s⟩ := by
  have hall := scoreAll_eq_ok_iff.mp h
  obtain ⟨hp, rfl⟩ := List.getElem?_eq_some_iff.mp hr
  have hp' : p < scored.length := by
    rw [← hall.length_eq]
    exact hp
  obtain ⟨s, hs, heq⟩ := Record.scoreWith_eq_ok_iff.mp (hall.get hp hp')
  exact ⟨s, hs, by rw [List.getElem?_eq_getElem hp']; exact congrArg some heq⟩

/-- Ranking the scored records and cutting the ranking gives the best `k`:
the numbered list in order, of which the answer is the first part and what
was cut off the second. -/
theorem nearest_of_scoreAll {records : List Record} {scored : List Neighbor}
    (h : scoreAll scoring query records = .ok scored) (k : Nat) :
    ∃ positions, Nearest scoring query records k
      ((Neighbor.rank scored).take k) positions := by
  obtain ⟨placed, hperm, hrank, hordered⟩ :=
    Neighbor.exists_places_of_rank scored
  have hscored : ∀ {n : Neighbor} {p : Nat}, (n, p) ∈ placed ↔
      scored[p]? = some n := by
    intro n p
    rw [hperm.mem_iff, List.mk_mem_zipIdx_iff_getElem?]
  have hzip : ((placed.take k).map Prod.fst).zip ((placed.take k).map Prod.snd)
      = placed.take k := by
    rw [List.zip_map', List.map_id']
  have hsplit : (placed.take k ++ placed.drop k).Pairwise Neighbor.Ahead := by
    rw [List.take_append_drop]
    exact hordered
  rw [← hrank, ← List.map_take]
  refine ⟨(placed.take k).map Prod.snd, ?_, ?_, ?_, ?_, ?_⟩
  · rw [List.length_map, List.length_take, hperm.length_eq, List.length_zipIdx,
      (scoreAll_eq_ok_iff.mp h).length_eq]
  · have hall : (placed.map Prod.snd).Nodup := by
      rw [(hperm.map Prod.snd).nodup_iff, List.zipIdx_map_snd]
      exact List.nodup_range'
    rw [List.map_take]
    exact hall.sublist (List.take_sublist k _)
  · rw [List.forall₂_map_left_iff, List.forall₂_map_right_iff,
      List.forall₂_same]
    rintro ⟨n, p⟩ hmem
    exact exists_record_of_scored h (hscored.mp (List.mem_of_mem_take hmem))
  · rw [hzip]
    exact (List.pairwise_append.mp hsplit).1
  · intro p r hr hp
    obtain ⟨s, hs, hn⟩ := exists_scored_of_record h hr
    refine ⟨s, hs, fun e he => ?_⟩
    rw [hzip] at he
    -- the record is in the ranking, and not in front of the cut
    have hmem := hscored.mpr hn
    rw [← List.take_append_drop k placed, List.mem_append] at hmem
    rcases hmem with hmem | hmem
    · exact absurd (List.mem_map.mpr ⟨_, hmem, rfl⟩) hp
    · exact (List.pairwise_append.mp hsplit).2.2 e he _ hmem

end scored

/-- What is no error is the value that is there. Whether one is there can be
evaluated, which an equation between results cannot. -/
theorem eq_ok_of_toOption {ε α : Type} {x : Except ε α} {a : α}
    (h : x.toOption = some a) :
    x = .ok a := by
  cases x with
  | error e => cases h
  | ok b => exact congrArg Except.ok (Option.some.inj h)

-- ================================================== the main statement

namespace Corpus

variable {scoring : Scoring} {c : Corpus} {query : Record}

/-- A search answers exactly if the query is admitted and each record is
scored, and with the first `k` of the ranked scores. -/
theorem searchWith_eq_ok_iff {k : Nat} {answer : List Neighbor} :
    c.searchWith scoring query k = .ok answer ↔
      c.admit? query = .ok () ∧
        ∃ scored, scoreAll scoring query.values c.records = .ok scored ∧
        answer = (Neighbor.rank scored).take k := by
  unfold searchWith rankingWith
  cases c.admit? query with
  | error e => exact iff_of_false nofun fun h => nomatch h.1
  | ok _ =>
      cases scoreAll scoring query.values c.records with
      | error e =>
          refine iff_of_false nofun fun h => ?_
          obtain ⟨-, scored, hscored, -⟩ := h
          cases hscored
      | ok scored =>
          constructor
          · intro h
            cases h
            exact ⟨rfl, scored, rfl, rfl⟩
          · rintro ⟨-, other, hother, rfl⟩
            cases hother
            rfl

/-- A search in which nothing fails ranks all scores and takes the first ones.
Everything about the answer is then a property of ranking. -/
theorem searchWith_of_scored {scored : List Neighbor}
    (hquery : c.admit? query = .ok ())
    (hscored : scoreAll scoring query.values c.records = .ok scored)
    (k : Nat) :
    c.searchWith scoring query k = .ok ((Neighbor.rank scored).take k) :=
  searchWith_eq_ok_iff.mpr ⟨hquery, scored, hscored, rfl⟩

/-- Other limits cut the same ranking, which makes one answer a prefix of the
next larger one. -/
theorem searchWith_eq_ok {k : Nat} {answer : List Neighbor}
    (h : c.searchWith scoring query k = .ok answer) :
    ∃ scored, scoreAll scoring query.values c.records = .ok scored ∧
      answer = (Neighbor.rank scored).take k ∧
      ∀ j, c.searchWith scoring query j
        = .ok ((Neighbor.rank scored).take j) := by
  obtain ⟨hquery, scored, hscored, hanswer⟩ := searchWith_eq_ok_iff.mp h
  exact ⟨scored, hscored, hanswer, searchWith_of_scored hquery hscored⟩

/-- What a search in a corpus answers is the best `k` of the records that
the corpus was made of. The corpus finds each of them by the id in the
answer, and asking for fewer gives the front part of the same answer. -/
theorem searchWith_nearest {dimension k : Nat} {records : List Record}
    {answer : List Neighbor} (hmake : make? dimension records = .ok c)
    (hsearch : c.searchWith scoring query k = .ok answer) :
    (∃ positions, Nearest scoring query.values records k answer positions ∧
      List.Forall₂ (fun n p => ∃ r, records[p]? = some r ∧
        c.get? n.id = some r)
        answer positions) ∧
    ∀ j ≤ k, ∃ shorter, c.searchWith scoring query j = .ok shorter ∧
      shorter <+: answer := by
  obtain ⟨scored, hscore, rfl, hall⟩ := searchWith_eq_ok hsearch
  have hrecords := (records_of_make? hmake).1
  constructor
  · rw [hrecords] at hscore
    obtain ⟨positions, hnearest⟩ := nearest_of_scoreAll hscore k
    refine ⟨positions, hnearest, hnearest.entry.imp ?_⟩
    rintro n p ⟨r, s, hr, -, rfl⟩
    refine ⟨r, hr, get?_eq_some_of_mem ?_⟩
    rw [hrecords]
    exact List.mem_of_getElem? hr
  · intro j hj
    exact ⟨_, hall j, List.take_prefix_take_left hj⟩

-- ------------------------------------------------------------ an instance

/-- Four vectors of one component. -/
def fourVectors : Corpus :=
  { records := [⟨⟨7⟩, [1.0]⟩, ⟨⟨9⟩, [2.0]⟩, ⟨⟨4⟩, [3.0]⟩, ⟨⟨2⟩, [4.0]⟩]
    dimension := 1
    dimension_eq := by decide
    finite := by decide
    nodup := by decide }

/-- A scoring with ties: a NaN for the vectors above 2.5, which ranks
highest, and the negative zero for the others. -/
def coarse : Scoring := fun _ vector =>
  .ok (if vector.all (2.5 < ·) then ⟨0x7FF8000000000000⟩
    else ⟨0x8000000000000000⟩)

/-- The best three under ties before, across and after the cut. -/
theorem searchWith_nearest_of_ties :
    make? 1 fourVectors.records = .ok fourVectors ∧
    fourVectors.searchWith coarse ⟨⟨1⟩, [1.0]⟩ 3
      = .ok [⟨⟨4⟩, ⟨0x7FF8000000000000⟩⟩, ⟨⟨2⟩, ⟨0x7FF8000000000000⟩⟩,
          ⟨⟨7⟩, ⟨0x8000000000000000⟩⟩] ∧
    ∃ positions, Nearest coarse [1.0] fourVectors.records 3
      [⟨⟨4⟩, ⟨0x7FF8000000000000⟩⟩, ⟨⟨2⟩, ⟨0x7FF8000000000000⟩⟩,
        ⟨⟨7⟩, ⟨0x8000000000000000⟩⟩]
      positions := by
  have hmake := make?_records fourVectors
  have hquery : fourVectors.admit? ⟨⟨1⟩, [1.0]⟩ = .ok () := by
    have hnorm : (norm [1.0] == 0.0) = false := by decide +kernel
    show (if (norm [1.0] == 0.0) = true then _ else _) = _
    rw [hnorm]
    rfl
  have hscore : scoreAll coarse [1.0] fourVectors.records
      = .ok [⟨⟨7⟩, ⟨0x8000000000000000⟩⟩, ⟨⟨9⟩, ⟨0x8000000000000000⟩⟩,
          ⟨⟨4⟩, ⟨0x7FF8000000000000⟩⟩, ⟨⟨2⟩, ⟨0x7FF8000000000000⟩⟩] := rfl
  have hrank : Neighbor.rank
      [⟨⟨7⟩, ⟨0x8000000000000000⟩⟩, ⟨⟨9⟩, ⟨0x8000000000000000⟩⟩,
        ⟨⟨4⟩, ⟨0x7FF8000000000000⟩⟩, ⟨⟨2⟩, ⟨0x7FF8000000000000⟩⟩]
      = [⟨⟨4⟩, ⟨0x7FF8000000000000⟩⟩, ⟨⟨2⟩, ⟨0x7FF8000000000000⟩⟩,
          ⟨⟨7⟩, ⟨0x8000000000000000⟩⟩, ⟨⟨9⟩, ⟨0x8000000000000000⟩⟩] := by
    cbv
  have hsearch : fourVectors.searchWith coarse ⟨⟨1⟩, [1.0]⟩ 3
      = .ok [⟨⟨4⟩, ⟨0x7FF8000000000000⟩⟩, ⟨⟨2⟩, ⟨0x7FF8000000000000⟩⟩,
          ⟨⟨7⟩, ⟨0x8000000000000000⟩⟩] := by
    unfold searchWith rankingWith
    rw [hquery]
    simp only [hscore, hrank]
    rfl
  obtain ⟨positions, hnearest, -⟩ := (searchWith_nearest hmake hsearch).1
  exact ⟨hmake, hsearch, positions, hnearest⟩

end Corpus

end KnnOracle
