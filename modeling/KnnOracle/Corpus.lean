/-
Corpora.

A corpus is a list of records that share one dimension, hold no NaN and
no infinity, and have pairwise different ids. The three rules are fields
of the type, so whoever holds a corpus holds them. The order of the
records is fixed when the corpus is made: it decides which of two
equally good neighbors ranks first. Beside the records stands an index of
their positions, by which they are looked up.

`Corpus.make?` goes over the records once, in order; it fills the index as
it goes and answers with the first fault that it meets. Within one record
the length is checked before the components and the components before
the id.
-/
import Std.Data.HashMap
import Std.Data.HashSet
import KnnOracle.Fault

namespace KnnOracle

-- =========================================================== the index

/-- The positions of records by their ids. -/
abbrev Positions := Std.HashMap RecordId Nat

namespace Positions

/-- Enters records at consecutive positions from `next` on. -/
def enter (known : Positions) (next : Nat) : List Record → Positions
  | [] => known
  | r :: rest => enter (known.insert r.id next) (next + 1) rest

/-- The positions of the records of a list. -/
def ofRecords (records : List Record) : Positions := enter ∅ 0 records

/-- Entering records gives each of their ids a position, and leaves all
other ids alone. -/
theorem getElem?_enter {records : List Record}
    (h : (records.map Record.id).Nodup) {known : Positions} {next : Nat}
    {id : RecordId} {p : Nat} :
    (known.enter next records)[id]? = some p ↔
      (∃ i r, records[i]? = some r ∧ r.id = id ∧ p = next + i) ∨
      (id ∉ records.map Record.id ∧ known[id]? = some p) := by
  induction records generalizing known next with
  | nil => simp [enter]
  | cons first rest ih =>
      obtain ⟨hfirst, hrest⟩ := List.nodup_cons.mp h
      have hstart : (∃ i r, (first :: rest)[i]? = some r ∧ r.id = id ∧
          p = next + i) ↔
          (first.id = id ∧ p = next) ∨
          ∃ i r, rest[i]? = some r ∧ r.id = id ∧ p = next + 1 + i := by
        constructor
        · intro ⟨i, r, hr, hid, hp⟩
          cases i with
          | zero =>
              cases hr
              exact .inl ⟨hid, hp⟩
          | succ i => exact .inr ⟨i, r, hr, hid, by omega⟩
        · intro hcases
          cases hcases with
          | inl hfirst => exact ⟨0, first, rfl, hfirst.1, hfirst.2⟩
          | inr hrest =>
              obtain ⟨i, r, hr, hid, hp⟩ := hrest
              exact ⟨i + 1, r, hr, hid, by omega⟩
      rw [enter, ih hrest, hstart, Std.HashMap.getElem?_insert, List.map_cons,
        List.mem_cons, not_or]
      by_cases hid : first.id = id
      · subst hid
        have hnext : next = p ↔ p = next := eq_comm
        simp [hfirst, hnext, or_comm]
      · simp [hid, Ne.symm hid]

/-- The positions are those at which the ids stand. -/
theorem getElem?_ofRecords {records : List Record}
    (h : (records.map Record.id).Nodup) {id : RecordId} {p : Nat} :
    (ofRecords records)[id]? = some p ↔ ∃ r, records[p]? = some r ∧
      r.id = id := by
  have hempty : (∅ : Positions)[id]? = none := Std.HashMap.getElem?_empty
  rw [ofRecords, getElem?_enter h, hempty]
  constructor
  · intro hcases
    cases hcases with
    | inl hthere =>
        obtain ⟨i, r, hr, hid, hp⟩ := hthere
        rw [Nat.zero_add] at hp
        subst hp
        exact ⟨r, hr, hid⟩
    | inr habsent => cases habsent.2
  · intro ⟨r, hr, hid⟩
    exact .inl ⟨p, r, hr, hid, (Nat.zero_add p).symm⟩

end Positions

-- ========================================================== the corpus

/-- A checked set of records in a fixed order. -/
structure Corpus where
  records : List Record
  dimension : Nat
  positions : Positions := .ofRecords records
  dimension_eq : ∀ r ∈ records, r.dimension = dimension
  finite : ∀ r ∈ records, r.firstNonFinite? = none
  nodup : (records.map Record.id).Nodup
  positions_eq : positions = .ofRecords records := by rfl

namespace Corpus

-- ============================================================ checking

/-- Registers records, the first of them at the position `next`: each is
checked against the ids seen before and entered among the positions. -/
def register (dimension : Nat) (seen : Std.HashSet RecordId)
    (known : Positions) (next : Nat) :
    List Record → Except Fault Positions
  | [] => .ok known
  | r :: rest =>
      if r.dimension ≠ dimension then
        .error (.atRecord r.id (.dimensionMismatch dimension r.dimension))
      else
        match r.ensureFinite with
        | .error fault => .error fault
        | .ok () =>
            if seen.contains r.id then .error (.duplicateId r.id)
            else register dimension (seen.insert r.id) (known.insert r.id next)
              (next + 1) rest

/-- Records can be registered exactly if each obeys the rules for one
record, none has an id that was seen before, and no id repeats. -/
theorem register_eq_ok_iff {dimension : Nat} {seen : Std.HashSet RecordId}
    {known : Positions} {next : Nat} {records : List Record}
    {positions : Positions} :
    register dimension seen known next records = .ok positions ↔
      (∀ r ∈ records, r.dimension = dimension ∧ r.firstNonFinite? = none ∧
        seen.contains r.id = false) ∧
      (records.map Record.id).Nodup ∧
        positions = known.enter next records := by
  induction records generalizing seen known next with
  | nil =>
      have hsame : known = positions ↔ positions = known := eq_comm
      simp [register, Positions.enter, hsame]
  | cons r rest ih =>
      rw [register, List.forall_mem_cons, List.map_cons, List.nodup_cons,
        Positions.enter, Record.ensureFinite]
      by_cases hdim : r.dimension = dimension
      · rw [if_neg (not_not_intro hdim)]
        cases hfin : r.firstNonFinite? with
        | some index => simp
        | none =>
            cases hseen : seen.contains r.id with
            | true => simp
            | false =>
                -- what the larger set forbids is what the old set forbids,
                -- and the new id
                simp only [Bool.false_eq_true, if_false, ih,
                  Std.HashSet.contains_insert, Bool.or_eq_false_iff,
                  beq_eq_false_iff_ne, ne_eq]
                constructor
                · intro ⟨hrest, hnodup, hpositions⟩
                  refine ⟨⟨⟨hdim, trivial, trivial⟩, fun s hs => ?_⟩,
                    ⟨?_, hnodup⟩, hpositions⟩
                  · have := hrest s hs
                    exact ⟨this.1, this.2.1, this.2.2.2⟩
                  · intro hmem
                    obtain ⟨s, hs, heq⟩ := List.mem_map.mp hmem
                    exact (hrest s hs).2.2.1 heq.symm
                · intro ⟨⟨_, hrest⟩, ⟨hnew, hnodup⟩, hpositions⟩
                  refine ⟨fun s hs => ?_, hnodup, hpositions⟩
                  have := hrest s hs
                  refine ⟨this.1, this.2.1, fun heq => hnew ?_, this.2.2⟩
                  exact List.mem_map.mpr ⟨s, hs, heq.symm⟩
      · rw [if_pos hdim]
        simp [hdim]

/-- Makes a corpus of the given dimension. -/
def make? (dimension : Nat) (records : List Record) : Except Fault Corpus :=
  match h : register dimension ∅ ∅ 0 records with
  | .error fault => .error fault
  | .ok positions =>
      have rules := register_eq_ok_iff.mp h
      .ok
        { records, dimension, positions
          dimension_eq := fun r hr => (rules.1 r hr).1
          finite := fun r hr => (rules.1 r hr).2.1
          nodup := rules.2.1
          positions_eq := rules.2.2 }

/-- Makes a corpus whose dimension is that of the first record. -/
def ofRecords? (records : List Record) : Except Fault Corpus :=
  make? ((records.head?.map Record.dimension).getD 0) records

-- ============================================================= look-up

/-- The number of records. -/
def size (c : Corpus) : Nat := c.records.length

/-- Whether there are no records. -/
def isEmpty (c : Corpus) : Bool := c.records.isEmpty

/-- Where the record with an id stands. -/
def position? (c : Corpus) (id : RecordId) : Option Nat := c.positions[id]?

/-- The record with an id: the one at the position of the id. -/
def get? (c : Corpus) (id : RecordId) : Option Record :=
  (c.position? id).bind fun p => c.records[p]?

end Corpus

end KnnOracle
