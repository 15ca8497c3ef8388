/-
Making a corpus.

Three rules decide whether a list of records is a corpus (`Obeys`), and
`Breaks` says how a record can break them after records that obey them:
which fault that is, and which of two faults wins. Neither mentions a set
or an index.

`make?_settles` says that a corpus is made exactly of the lists that obey
the rules, that its index then agrees with its records in both directions,
and that the answer is otherwise the fault of the first record that breaks
a rule.

# The route

Registering goes on behind records that obey the rules as if they were not
there, but for the ids that were seen (`register_append`), and stops at a
record that breaks one (`register_of_breaks`). Every list obeys the rules
or has a first record that does not (`obeys_or_breaks`), so these two give
both directions.
-/
import Mathlib.Data.List.Induction
import KnnOracle.Proofs.Corpus.Nearest

namespace KnnOracle

namespace Corpus

-- ============================================================= the rules

/-- The rules for the records of a corpus. -/
structure Obeys (dimension : Nat) (records : List Record) : Prop where
  dimension : ∀ r ∈ records, r.values.length = dimension
  finite : ∀ r ∈ records, ∀ v ∈ r.values, v.isFinite = true
  nodup : (records.map Record.id).Nodup

/-- How a record breaks a rule behind records that obey them. A wrong
length goes before a component that is not finite, and that before an id
that was there. -/
inductive Breaks (dimension : Nat) (before : List Record) (r : Record) :
    Fault → Prop where
  | length (h : r.values.length ≠ dimension) :
      Breaks dimension before r
        (.atRecord r.id (.dimensionMismatch dimension r.values.length))
  | component (h : r.values.length = dimension) (index : Nat)
      (hindex : index < r.values.length)
      (hbad : r.values[index].isFinite = false)
      (hfirst : ∀ (i : Nat) (hi : i < index), r.values[i].isFinite = true) :
      Breaks dimension before r (.nonFinite r.id index)
  | id (h : r.values.length = dimension)
      (hfinite : ∀ v ∈ r.values, v.isFinite = true)
      (hmem : r.id ∈ before.map Record.id) :
      Breaks dimension before r (.duplicateId r.id)

/-- The program looks for the first component that is not finite. There is none
exactly if all are finite. -/
theorem firstNonFinite?_eq_none_iff {r : Record} :
    r.firstNonFinite? = none ↔ ∀ v ∈ r.values, v.isFinite = true := by
  simp [Record.firstNonFinite?]

/-- Where there is one, all in front of it are finite, and its number is the
one that the fault names. -/
theorem firstNonFinite?_eq_some_iff {r : Record} {index : Nat} :
    r.firstNonFinite? = some index ↔
      ∃ hindex : index < r.values.length, r.values[index].isFinite = false ∧
        ∀ (i : Nat) (hi : i < index), r.values[i].isFinite = true := by
  simp [Record.firstNonFinite?, List.findIdx?_eq_some_iff_getElem]

/-- The rules without the order in which they are tried: every record has the
dimension and finite components, and no id comes twice. -/
theorem obeys_iff {dimension : Nat} {records : List Record} :
    Obeys dimension records ↔
      (∀ r ∈ records, r.dimension = dimension ∧ r.firstNonFinite? = none) ∧
      (records.map Record.id).Nodup := by
  constructor
  · intro h
    exact ⟨fun r hr => ⟨h.dimension r hr,
      firstNonFinite?_eq_none_iff.mpr (h.finite r hr)⟩, h.nodup⟩
  · intro ⟨hrecords, hnodup⟩
    exact ⟨fun r hr => (hrecords r hr).1,
      fun r hr => firstNonFinite?_eq_none_iff.mp (hrecords r hr).2, hnodup⟩

/-- One more record obeys the rules, or it breaks one. The rules are tried in
the order in which faults are reported, so that only one of them can be the
first. -/
theorem obeys_concat_or_breaks {dimension : Nat} {before : List Record}
    (r : Record) (h : Obeys dimension before) :
    Obeys dimension (before ++ [r]) ∨
      ∃ fault, Breaks dimension before r fault := by
  by_cases hlength : r.values.length = dimension
  · cases hfirst : r.firstNonFinite? with
    | some index =>
        obtain ⟨hindex, hbad, hgood⟩ := firstNonFinite?_eq_some_iff.mp hfirst
        exact .inr ⟨_, .component hlength index hindex hbad hgood⟩
    | none =>
        have hfinite := firstNonFinite?_eq_none_iff.mp hfirst
        by_cases hmem : r.id ∈ before.map Record.id
        · exact .inr ⟨_, .id hlength hfinite hmem⟩
        · refine .inl ⟨?_, ?_, ?_⟩
          · simpa [or_imp, forall_and, hlength] using h.dimension
          · intro x hx
            rw [List.mem_append, List.mem_singleton] at hx
            cases hx with
            | inl hx => exact h.finite x hx
            | inr hx => exact hx ▸ hfinite
          · rw [List.map_append, List.map_singleton, List.nodup_append]
            refine ⟨h.nodup, List.nodup_singleton _,
              fun a ha b hb heq => hmem ?_⟩
            rw [List.mem_singleton] at hb
            exact hb ▸ heq ▸ ha
  · exact .inr ⟨_, .length hlength⟩

/-- A list obeys the rules, or it has a first record that breaks one. So the
two outcomes of making a corpus exclude each other and leave no third. -/
theorem obeys_or_breaks (dimension : Nat) (records : List Record) :
    Obeys dimension records ∨
    ∃ before r after fault, records = before ++ r :: after ∧
      Obeys dimension before ∧
      Breaks dimension before r fault := by
  induction records using List.reverseRecOn with
  | nil => exact .inl ⟨nofun, nofun, List.nodup_nil⟩
  | append_singleton records r ih =>
      cases ih with
      | inl hobeys =>
          cases obeys_concat_or_breaks r hobeys with
          | inl hobeys => exact .inl hobeys
          | inr hbreaks =>
              obtain ⟨fault, hbreaks⟩ := hbreaks
              exact .inr ⟨records, r, [], fault, rfl, hobeys, hbreaks⟩
      | inr hbreaks =>
          obtain ⟨before, bad, after, fault, rfl, hobeys, hbreaks⟩ := hbreaks
          exact .inr ⟨before, bad, after ++ [r], fault, by simp, hobeys,
            hbreaks⟩

-- ============================================================ registering

/-- A set holds the ids of records. -/
def Holds (seen : Std.HashSet RecordId) (records : List Record) : Prop :=
  ∀ id, seen.contains id = true ↔ id ∈ records.map Record.id

/-- The ids that were seen are kept in a set, and entering one more keeps the
set in step with the records. -/
theorem Holds.insert {seen : Std.HashSet RecordId} {records : List Record}
    (h : Holds seen records) (r : Record) :
    Holds (seen.insert r.id) (records ++ [r]) := by
  intro id
  rw [Std.HashSet.contains_insert, Bool.or_eq_true, h id, beq_iff_eq,
    List.map_append, List.mem_append, List.map_singleton, List.mem_singleton,
    or_comm]
  exact or_congr_right eq_comm

section register

variable {dimension next : Nat} {seen : Std.HashSet RecordId}
  {known : Positions}
  {prior : List Record}

/-- A record that breaks a rule ends the registration with its fault, whatever
comes after it. -/
theorem register_of_breaks {r : Record} {fault : Fault}
    (hseen : Holds seen prior) (h : Breaks dimension prior r fault)
    (rest : List Record) :
    register dimension seen known next (r :: rest) = .error fault := by
  rw [register, Record.ensureFinite]
  cases h with
  | length hlength => exact if_pos hlength
  | component hlength index hindex hbad hfirst =>
      have hdimension : r.dimension = dimension := hlength
      rw [if_neg (not_not_intro hdimension),
        firstNonFinite?_eq_some_iff.mpr ⟨hindex, hbad, hfirst⟩]
  | id hlength hfinite hmem =>
      have hdimension : r.dimension = dimension := hlength
      rw [if_neg (not_not_intro hdimension),
        firstNonFinite?_eq_none_iff.mpr hfinite]
      exact if_pos ((hseen r.id).mpr hmem)

/-- Behind records that obey the rules the registration goes on, with an index
that knows all of them. This is the invariant of the loop. -/
theorem register_append {records : List Record} (hseen : Holds seen prior)
    (h : Obeys dimension (prior ++ records)) (rest : List Record) :
    ∃ seen' known' next', Holds seen' (prior ++ records) ∧
      register dimension seen known next (records ++ rest)
        = register dimension seen' known' next' rest := by
  induction records generalizing prior seen known next with
  | nil => exact ⟨seen, known, next, by rw [List.append_nil]; exact hseen, rfl⟩
  | cons r records ih =>
      rw [List.append_cons] at h
      have hmem : r ∈ prior ++ [r] ++ records := by simp
      have hnew : seen.contains r.id = false := by
        rw [← Bool.not_eq_true, hseen r.id]
        intro hold
        have hnodup := h.nodup
        simp only [List.map_append, List.map_cons, List.append_assoc,
          List.singleton_append, List.nodup_append] at hnodup
        exact hnodup.2.2 r.id hold r.id (List.mem_cons_self ..) rfl
      have hstep : register dimension seen known next (r :: (records ++ rest))
          = register dimension (seen.insert r.id) (known.insert r.id next)
            (next + 1)
              (records ++ rest) := by
        have hdimension : r.dimension = dimension := h.dimension r hmem
        rw [register, Record.ensureFinite, if_neg (not_not_intro hdimension),
          firstNonFinite?_eq_none_iff.mpr (h.finite r hmem)]
        exact if_neg (by rw [hnew]; exact Bool.false_ne_true)
      obtain ⟨seen', known', next', hseen', heq⟩ :=
        @ih (next + 1) _ (known.insert r.id next) _ (hseen.insert r) h
      refine ⟨seen', known', next', by rw [List.append_cons]; exact hseen', ?_⟩
      rw [List.cons_append, hstep, heq]

end register

-- ==================================================== the main statement

private theorem holds_empty : Holds ∅ [] := by
  intro id
  simp

/-- A corpus is made of the records that obey the rules. Later files use a
corpus through this: its records are valid, and nothing else is known of it. -/
theorem exists_make?_iff {dimension : Nat} {records : List Record} :
    (∃ c, make? dimension records = .ok c) ↔ Obeys dimension records := by
  constructor
  · intro ⟨c, hmake⟩
    obtain ⟨hrecords, hdimension⟩ := records_of_make? hmake
    rw [obeys_iff, ← hrecords, ← hdimension]
    exact ⟨fun r hr => ⟨c.dimension_eq r hr, c.finite r hr⟩, c.nodup⟩
  · intro h
    have hrules := obeys_iff.mp h
    exact ⟨_, make?_records
      { records, dimension
        dimension_eq := fun r hr => (hrules.1 r hr).1
        finite := fun r hr => (hrules.1 r hr).2
        nodup := hrules.2 }⟩

private theorem make?_eq_error_iff {dimension : Nat} {records : List Record}
    {fault : Fault} :
    make? dimension records = .error fault ↔
      register dimension ∅ ∅ 0 records = .error fault := by
  unfold make?
  split
  · next other h =>
      rw [h, Except.error.injEq, Except.error.injEq]
  · next positions h =>
      refine iff_of_false nofun fun herror => ?_
      rw [h] at herror
      cases herror

/-- A record that breaks a rule first gives its fault. The dimension that the
fault names is the one that the first record has set. -/
theorem make?_of_breaks {dimension : Nat} {before after : List Record}
    {r : Record} {fault : Fault} (hobeys : Obeys dimension before)
    (hbreaks : Breaks dimension before r fault) :
    make? dimension (before ++ r :: after) = .error fault := by
  obtain ⟨seen, known, next, hseen, heq⟩ : ∃ seen known next,
    Holds seen ([] ++ before) ∧
      register dimension ∅ ∅ 0 (before ++ r :: after)
        = register dimension seen known next (r :: after) :=
    register_append holds_empty hobeys (r :: after)
  rw [make?_eq_error_iff, heq]
  exact register_of_breaks hseen hbreaks after

/-- What making a corpus of records comes to. -/
structure Settles (dimension : Nat) (records : List Record) : Prop where
  /-- There is one exactly if the records obey the rules. -/
  made : (∃ c, make? dimension records = .ok c) ↔ Obeys dimension records
  /-- It holds these records in this order. -/
  kept : ∀ c, make? dimension records = .ok c → c.records = records ∧
    c.dimension = dimension
  /-- Its index has each id at the position of its record, and no other. -/
  position : ∀ c, make? dimension records = .ok c → ∀ id p,
    c.position? id = some p ↔ ∃ r, records[p]? = some r ∧ r.id = id
  /-- By its id each record is found, and nothing else by any id. -/
  found : ∀ c, make? dimension records = .ok c → ∀ id r,
    c.get? id = some r ↔ r ∈ records ∧ r.id = id
  /-- Otherwise the answer is the fault of the first record that breaks a
  rule. -/
  refused : ∀ fault, make? dimension records = .error fault ↔
    ∃ before r after, records = before ++ r :: after ∧ Obeys dimension before ∧
      Breaks dimension before r fault
  /-- Left open, the dimension is that of the first record. -/
  inferred : ofRecords? records
    = make? (match records with | [] => 0 | r :: _ => r.values.length) records

/-- For all records and dimensions: a corpus is made exactly of those that obey
the rules, its index is exact both ways, and otherwise the first record that
breaks a rule gives its fault. -/
theorem make?_settles (dimension : Nat) (records : List Record) :
    Settles dimension records := by
  refine ⟨exists_make?_iff, fun c hmake => records_of_make? hmake,
    fun c hmake id p => ?_, fun c hmake id r => ?_, fun fault => ?_, ?_⟩
  · rw [position?_eq_some_iff, (records_of_make? hmake).1]
  · rw [get?_eq_some_iff, (records_of_make? hmake).1]
  · constructor
    · intro hmake
      cases obeys_or_breaks dimension records with
      | inl hobeys =>
          obtain ⟨c, hok⟩ := exists_make?_iff.mpr hobeys
          rw [hok] at hmake
          cases hmake
      | inr hbreaks =>
          obtain ⟨before, r, after, other, rfl, hobeys, hbreaks⟩ := hbreaks
          rw [make?_of_breaks hobeys hbreaks] at hmake
          cases hmake
          exact ⟨before, r, after, rfl, hobeys, hbreaks⟩
    · intro ⟨before, r, after, hsplit, hobeys, hbreaks⟩
      rw [hsplit]
      exact make?_of_breaks hobeys hbreaks
  · cases records with
    | nil => rfl
    | cons r rest => rfl

end Corpus

end KnnOracle
