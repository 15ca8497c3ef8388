/-
Queries with ids of their own.

Behind the largest id of a corpus the ids are free, up to the largest number
there is. A query takes the next of them, and fails if there is none
(`query?_of_overflow`); otherwise it is made of a record of the corpus,
whatever the number of queries is (`exists_query?`). So as many queries as
there are ids are made with consecutive ids, and any fewer are the first of
them (`exists_queriesFrom`), and more are refused (`queriesFrom_overflow`).
Both go by induction on the number of queries that are left.

All of that is so if there is room for the queries in a list. The room is
made first: without it nothing else counts, not even that there is nothing
to make queries of.

# The main statement

`buildQueries_settles` says of each corpus and all settings what the queries
are: which of the reasons to refuse them comes first, and that they are fresh
where there is none.
-/
import Mathlib
import KnnOracle.Proofs.Dataset.Perturbing
import KnnOracle.Session.Validate

namespace KnnOracle

namespace Synthetic

open KnnOracle.Random

-- ============================================================== one query

section query

variable {corpus : Array Record} {dimension index : Nat} {degree : Float}
  {firstId : UInt64}

/-- A corpus that has members has one to choose, whatever the stream. -/
theorem exists_choose? {α : Type} {xs : Array α} (h : xs ≠ #[]) (s : Stream) :
    ∃ x s', x ∈ xs ∧ choose? xs s = (some x, s') := by
  have hlt := belowWithin_lt (Array.size_pos_iff.mpr h) 1000 s
  rw [← below] at hlt
  rw [choose?, if_neg (by simpa using h)]
  cases hbelow : below xs.size s with
  | mk i s' =>
      rw [hbelow] at hlt
      refine ⟨xs[i], s', Array.getElem_mem hlt, ?_⟩
      dsimp only
      rw [Array.getElem?_eq_getElem hlt]

/-- Behind the largest number there are no ids. The record is chosen before
this is found out, but no noise is drawn. -/
theorem query?_of_overflow (hcorpus : corpus ≠ #[])
    (hover : 2 ^ 64 ≤ firstId.toNat + index) (count : Nat) (s : Stream) :
    (query? corpus count degree firstId index s).1
      = some (.error (.idOverflow firstId count)) := by
  obtain ⟨base, s', -, hbase⟩ := exists_choose? hcorpus s
  rw [query?, hbase]
  dsimp only
  rw [if_neg (by omega)]

/-- What is wrong with the noise is wrong with the query. -/
theorem query?_of_error (hcorpus : corpus ≠ #[])
    (hroom : firstId.toNat + index < 2 ^ 64) {fault : DatasetFault}
    (hfault : ∀ base ∈ corpus, ∀ s, perturb base degree s = (.error fault, s))
    (count : Nat) (s : Stream) :
    (query? corpus count degree firstId index s).1 = some (.error fault) := by
  obtain ⟨base, s', hmem, hbase⟩ := exists_choose? hcorpus s
  rw [query?, hbase]
  dsimp only
  rw [if_pos hroom, hfault base hmem]

/-- A query takes the next id, and does not depend on how many there will be.
Later queries are only added. -/
theorem exists_query? (hcorpus : corpus ≠ #[])
    (hdimension : ∀ r ∈ corpus, r.dimension = dimension)
    (hdegree : Admissible degree) (hdraw : Drawable degree dimension)
    (hroom : firstId.toNat + index < 2 ^ 64) (s : Stream) :
    ∃ q s', q.id.value.toNat = firstId.toNat + index ∧
      q.dimension = dimension ∧
      ∀ count, query? corpus count degree firstId index s
        = (some (.ok q), s') := by
  obtain ⟨base, s', hmem, hbase⟩ := exists_choose? hcorpus s
  have hsame := hdimension base hmem
  obtain ⟨r, hr, -, hlength⟩ := perturb_of_drawable hdegree (hsame ▸ hdraw) s'
  refine ⟨⟨⟨firstId + UInt64.ofNat index⟩, r.values⟩,
    (perturb base degree s').2, ?_, hlength.trans hsame, fun count => ?_⟩
  · show (firstId + UInt64.ofNat index).toNat = _
    rw [UInt64.toNat_add, UInt64.toNat_ofNat', Nat.add_mod_mod,
      Nat.mod_eq_of_lt hroom]
  · rw [query?, hbase]
    dsimp only
    rw [if_pos hroom]
    cases hp : perturb base degree s' with
    | mk result s'' =>
        rw [hp] at hr
        cases hr
        rfl

end query

-- ============================================================= all queries

section queries

variable {corpus : Array Record} {dimension : Nat} {degree : Float}
  {firstId : UInt64}

/-- As long as there are ids, queries are made in their order, and fewer of
them are the first ones. -/
theorem exists_queriesFrom (hcorpus : corpus ≠ #[])
    (hdimension : ∀ r ∈ corpus, r.dimension = dimension)
    (hdegree : Admissible degree) (hdraw : Drawable degree dimension)
    {remaining index : Nat}
    (hroom : firstId.toNat + index + remaining ≤ 2 ^ 64) (acc : List Record)
    (s : Stream) :
    ∃ drawn : List Record, drawn.map (fun q => q.id.value.toNat)
        = List.range' (firstId.toNat + index) remaining ∧
      (∀ q ∈ drawn, q.dimension = dimension) ∧
      ∀ count j, j ≤ remaining →
        (queriesFrom corpus count degree firstId acc index j s).1
          = .ok (acc.reverse ++ drawn.take j) := by
  induction remaining generalizing index acc s with
  | zero =>
      refine ⟨[], rfl, fun q hq => (by cases hq), fun count j hj => ?_⟩
      rw [Nat.le_zero.mp hj, List.take_nil, List.append_nil]
      rfl
  | succ remaining ih =>
      have hnext : firstId.toNat + index < 2 ^ 64 := by omega
      obtain ⟨q, s', hid, hlength, hquery⟩ :=
        exists_query? hcorpus hdimension hdegree hdraw hnext s
      obtain ⟨drawn, hids, hlengths, hrest⟩ :=
        @ih (index + 1) (by omega) (q :: acc) s'
      refine ⟨q :: drawn, ?_, List.forall_mem_cons.mpr ⟨hlength, hlengths⟩,
        fun count j hj => ?_⟩
      · rw [List.map_cons, hid, hids, List.range'_succ, Nat.add_assoc]
      · cases j with
        | zero => rw [List.take_zero, List.append_nil]; rfl
        | succ j =>
            rw [queriesFrom, hquery]
            dsimp only
            rw [hrest count j (by omega), List.reverse_cons,
              List.take_succ_cons, List.append_assoc]
            rfl

/-- More queries than there are ids are refused, after the ones that have ids
were drawn. -/
theorem queriesFrom_overflow (hcorpus : corpus ≠ #[])
    (hdimension : ∀ r ∈ corpus, r.dimension = dimension)
    (hdegree : Admissible degree) (hdraw : Drawable degree dimension)
    {remaining index : Nat} (hindex : firstId.toNat + index ≤ 2 ^ 64)
    (hover : 2 ^ 64 < firstId.toNat + index + remaining) (count : Nat)
    (acc : List Record) (s : Stream) :
    (queriesFrom corpus count degree firstId acc index remaining s).1
      = .error (.idOverflow firstId count) := by
  induction remaining generalizing index acc s with
  | zero => omega
  | succ remaining ih =>
      rw [queriesFrom]
      by_cases hroom : firstId.toNat + index < 2 ^ 64
      · obtain ⟨q, s', -, -, hquery⟩ :=
          exists_query? hcorpus hdimension hdegree hdraw hroom s
        rw [hquery]
        exact @ih (index + 1) (by omega) (by omega) (q :: acc) s'
      · have hquery :=
          @query?_of_overflow corpus index degree firstId hcorpus
            (by omega) count s
        cases hq : query? corpus count degree firstId index s with
        | mk result s' =>
            rw [hq] at hquery
            cases hquery
            rfl

/-- Queries that there is room for are made one after the other. -/
theorem queries_of_room {count : Nat} (hroom : HasRoom count recordSize)
    (records : List Record) (s : Stream) :
    queries records count degree firstId s
      = queriesFrom records.toArray count degree firstId [] 0 count s :=
  if_pos hroom

/-- Where there is no room for the queries, the program ends abruptly, before
the records are looked at. -/
theorem queries_of_no_room {count : Nat} (hroom : ¬ HasRoom count recordSize)
    (records : List Record) (s : Stream) :
    queries records count degree firstId s = (.error .noRoom, s) :=
  if_neg hroom

theorem HasRoom.mono {count fewer size : Nat} (h : HasRoom count size)
    (hle : fewer ≤ count) : HasRoom fewer size :=
  Nat.lt_of_le_of_lt (Nat.mul_le_mul_right size hle) h

/-- Where noise cannot be drawn, the first query fails. -/
theorem queries_of_error {records : List Record} (hrecords : records ≠ [])
    {fault : DatasetFault}
    (hfault : ∀ base ∈ records, ∀ s, perturb base degree s = (.error fault, s))
    {count : Nat} (hroom : HasRoom count recordSize) (hcount : 0 < count)
    (s : Stream) :
    (queries records count degree firstId s).1 = .error fault := by
  rw [queries_of_room hroom]
  obtain ⟨count, rfl⟩ := Nat.exists_eq_add_of_lt hcount
  have hquery :=
    @query?_of_error records.toArray 0 degree firstId (by simpa using hrecords)
    firstId.toNat_lt fault (by simpa using hfault) (0 + count + 1) s
  rw [queriesFrom]
  cases hq : query? records.toArray (0 + count + 1) degree firstId 0 s with
  | mk result s' =>
      rw [hq] at hquery
      cases hquery
      rfl

theorem queries_nil {count : Nat} (hroom : HasRoom count recordSize)
    (s : Stream) :
    (queries [] count degree firstId s).1 = .ok [] := by
  rw [queries_of_room hroom]
  cases count with
  | zero => rfl
  | succ count => rfl

end queries

end Synthetic

-- ======================================================== the largest id

namespace Corpus

variable {corpus : Corpus} {m : UInt64}

/-- The number is an id of the corpus, and no id is larger. -/
def Largest (corpus : Corpus) (m : UInt64) : Prop :=
  ⟨m⟩ ∈ corpus.records.map Record.id ∧ ∀ r ∈ corpus.records, r.id.value ≤ m

instance : Std.LawfulOrderMax UInt64 :=
  have hmax : ∀ a b : UInt64, max a b = if a ≤ b then b else a :=
    fun _ _ => rfl
  .of_max_le_iff
    (fun a b c => by
      simp only [hmax, UInt64.le_iff_toNat_le]
      split <;> omega)
    (fun a b => by
      rw [hmax]
      split
      · exact .inr rfl
      · exact .inl rfl)

private theorem largestId?_eq_some_iff :
    corpus.largestId? = some m ↔ corpus.Largest m := by
  have hmax : corpus.largestId?
      = (corpus.records.map fun r => r.id.value).max? := by
    unfold largestId?
    cases corpus.records with
    | nil => rfl
    | cons r rest => rfl
  have hmem : m ∈ corpus.records.map (fun r => r.id.value)
      ↔ ⟨m⟩ ∈ corpus.records.map Record.id := by
    simp only [List.mem_map]
    exact exists_congr fun r => and_congr_right fun _ =>
      ⟨fun h => congrArg RecordId.mk h, fun h => congrArg RecordId.value h⟩
  rw [hmax, List.max?_eq_some_iff, List.forall_mem_map, hmem]
  rfl

private theorem exists_largest (h : corpus.records ≠ []) :
    ∃ m, corpus.Largest m := by
  cases hlargest : corpus.largestId? with
  | some m => exact ⟨m, largestId?_eq_some_iff.mp hlargest⟩
  | none =>
      rw [largestId?, reduce?_eq_none_iff, List.map_eq_nil_iff] at hlargest
      exact absurd hlargest h

/-- No record has an id behind the largest one, so queries are given ids of
their own. -/
theorem Largest.fresh (h : corpus.Largest m) {id : RecordId}
    (hlt : m.toNat < id.value.toNat) :
    id ∉ corpus.records.map Record.id := by
  intro hmem
  obtain ⟨r, hr, rfl⟩ := List.mem_map.mp hmem
  exact absurd (UInt64.le_iff_toNat_le.mp (h.2 r hr)) (Nat.not_le.mpr hlt)

-- ================================================== the main statement

open Synthetic

variable {s : Settings}

/-- What the queries of a run are. Of the reasons to refuse them the first
one counts: the largest id, then the room for them, then the noise, then the
number of ids. -/
structure Queried (corpus : Corpus) (s : Settings) : Prop where
  of_full : ∀ m, corpus.Largest m → m.toNat + 1 = 2 ^ 64 →
    buildQueries s corpus = .error (.noRoomForQueries ⟨m⟩)
  /-- An empty corpus has no largest id, and its queries need room too. -/
  of_no_room : (∀ m, corpus.Largest m → m.toNat + 1 < 2 ^ 64) →
    ¬ HasRoom s.queries recordSize →
    buildQueries s corpus = .error (.queriesNotMade .noRoom)
  of_empty : corpus.records = [] → HasRoom s.queries recordSize →
    buildQueries s corpus = .ok []
  of_not_admissible : ∀ m, corpus.Largest m → m.toNat + 1 < 2 ^ 64 →
    HasRoom s.queries recordSize →
    0 < s.queries → ¬ Admissible s.perturbation →
    buildQueries s corpus
      = .error (.queriesNotMade (.invalidPerturbation s.perturbation))
  of_not_drawable : ∀ m, corpus.Largest m → m.toNat + 1 < 2 ^ 64 →
    HasRoom s.queries recordSize →
    0 < s.queries → Admissible s.perturbation →
    ¬ Drawable s.perturbation corpus.dimension →
    buildQueries s corpus
      = .error (.queriesNotMade (.noiseTooWide s.perturbation))
  of_overflow : ∀ m, corpus.Largest m → m.toNat + 1 < 2 ^ 64 →
    HasRoom s.queries recordSize →
    Admissible s.perturbation → Drawable s.perturbation corpus.dimension →
    2 ^ 64 ≤ m.toNat + s.queries →
    buildQueries s corpus
      = .error (.queriesNotMade (.idOverflow (m + 1) s.queries))
  fresh : ∀ m, corpus.Largest m → m.toNat + 1 < 2 ^ 64 →
    HasRoom s.queries recordSize →
    (0 < s.queries → Admissible s.perturbation ∧
      Drawable s.perturbation corpus.dimension) →
    m.toNat + s.queries < 2 ^ 64 →
    ∃ queries, buildQueries s corpus = .ok queries ∧
      queries.map (fun q => q.id.value.toNat)
        = List.range' (m.toNat + 1) s.queries ∧
      (queries.map Record.id).Nodup ∧
      (∀ q ∈ queries, q.id ∉ corpus.records.map Record.id) ∧
      ∀ q ∈ queries, q.dimension = corpus.dimension
  /-- Fewer queries are the first ones. -/
  fewer : ∀ queries j, buildQueries s corpus = .ok queries → j ≤ s.queries →
    buildQueries { s with queries := j } corpus = .ok (queries.take j)

/-- The queries that are drawn for a run, if the first id is free. -/
theorem buildQueries_of_free (h : corpus.Largest m)
    (hfree : m.toNat + 1 < 2 ^ 64) :
    buildQueries s corpus
      = (queries corpus.records s.queries s.perturbation (m + 1)
          (Random.Stream.ofSeed (s.seed + 1))).1.mapError .queriesNotMade := by
  rw [buildQueries, firstQueryId, largestId?_eq_some_iff.mpr h]
  dsimp only
  rw [if_pos hfree]
  dsimp only
  generalize (queries corpus.records s.queries s.perturbation (m + 1)
    (Random.Stream.ofSeed (s.seed + 1))).1 = result
  cases result with
  | error e => rfl
  | ok list => rfl

theorem buildQueries_of_empty (h : corpus.records = []) :
    buildQueries s corpus
      = (queries [] s.queries s.perturbation 0
          (Random.Stream.ofSeed (s.seed + 1))).1.mapError .queriesNotMade := by
  have hlargest : corpus.largestId? = none := by rw [largestId?, h]; rfl
  rw [buildQueries, firstQueryId, hlargest, h]
  dsimp only
  generalize (queries [] s.queries s.perturbation 0
    (Random.Stream.ofSeed (s.seed + 1))).1 = result
  cases result with
  | error e => rfl
  | ok list => rfl

/-- Without records there are no queries, and nothing is drawn for them. -/
private theorem buildQueries_of_nil (h : corpus.records = [])
    (hroom : HasRoom s.queries recordSize) :
    buildQueries s corpus = .ok [] := by
  rw [buildQueries_of_empty h, queries_nil hroom]
  rfl

/-- Where there is no room for the queries and the first id is free, nothing
else counts. -/
theorem buildQueries_of_no_room
    (h : ∀ m, corpus.Largest m → m.toNat + 1 < 2 ^ 64)
    (hroom : ¬ HasRoom s.queries recordSize) :
    buildQueries s corpus = .error (.queriesNotMade .noRoom) := by
  by_cases hempty : corpus.records = []
  · rw [buildQueries_of_empty hempty, queries_of_no_room hroom]
    rfl
  · obtain ⟨m, hm⟩ := exists_largest hempty
    rw [buildQueries_of_free hm (h m hm), queries_of_no_room hroom]
    rfl

private theorem Largest.ne_nil (h : corpus.Largest m) :
    corpus.records ≠ [] := by
  intro hnil
  rw [Largest, hnil] at h
  cases h.1

private theorem toNat_succ (hfree : m.toNat + 1 < 2 ^ 64) :
    (m + 1).toNat = m.toNat + 1 := by
  rw [UInt64.toNat_add]
  exact Nat.mod_eq_of_lt hfree

/-- Where no queries are asked for, there are none. Even so the first id has to
be free. -/
theorem buildQueries_zero (h : corpus.Largest m)
    (hfree : m.toNat + 1 < 2 ^ 64) :
    buildQueries { s with queries := 0 } corpus = .ok [] :=
      buildQueries_of_free h hfree

/-- Where there are ids enough, all numbers of queries up to that of the
settings are made from one list. -/
theorem exists_buildQueries (h : corpus.Largest m)
    (hfree : m.toNat + 1 < 2 ^ 64)
    (hnoise : 0 < s.queries → Admissible s.perturbation ∧
      Drawable s.perturbation corpus.dimension)
    (hroom : HasRoom s.queries recordSize)
    (hids : m.toNat + s.queries < 2 ^ 64) :
    ∃ list : List Record, list.map (fun q => q.id.value.toNat)
        = List.range' (m.toNat + 1) s.queries ∧
      (∀ q ∈ list, q.dimension = corpus.dimension) ∧
      ∀ j ≤ s.queries, buildQueries { s with queries := j } corpus
        = .ok (list.take j) := by
  rcases Nat.eq_zero_or_pos s.queries with hzero | hpos
  · rw [hzero]
    refine ⟨[], rfl, fun q hq => (by cases hq), fun j hj => ?_⟩
    rw [Nat.le_zero.mp hj]
    exact buildQueries_zero h hfree
  · obtain ⟨hdegree, hdraw⟩ := hnoise hpos
    have hfirst := toNat_succ hfree
    obtain ⟨list, hlist, hlengths, hall⟩ :=
      @exists_queriesFrom corpus.records.toArray
      corpus.dimension s.perturbation (m + 1) (by simpa using h.ne_nil)
      (by simpa using corpus.dimension_eq) hdegree hdraw s.queries 0
        (by omega) []
      (Random.Stream.ofSeed (s.seed + 1))
    rw [hfirst, Nat.add_zero] at hlist
    refine ⟨list, hlist, hlengths, fun j hj => ?_⟩
    rw [buildQueries_of_free h hfree, queries_of_room (hroom.mono hj),
      hall j j hj]
    rfl

theorem Largest.fresh_of_range (h : corpus.Largest m) {list : List Record}
    {n : Nat}
    (hids : list.map (fun q => q.id.value.toNat)
      = List.range' (m.toNat + 1) n) :
    (list.map Record.id).Nodup ∧
      ∀ q ∈ list, q.id ∉ corpus.records.map Record.id := by
  constructor
  · have hnodup : (list.map fun q => q.id.value.toNat).Nodup :=
      hids ▸ List.nodup_range'
    exact .of_map (fun id => id.value.toNat) (by rwa [List.map_map])
  · intro q hq
    have hmem : q.id.value.toNat ∈ List.range' (m.toNat + 1) n :=
      hids ▸ List.mem_map_of_mem hq
    exact h.fresh (List.mem_range'_1.mp hmem).1

/-- Behind the largest number there is no first id, and this is found out
before all else. -/
theorem buildQueries_full (h : corpus.Largest m)
    (hfull : m.toNat + 1 = 2 ^ 64) :
    buildQueries s corpus = .error (.noRoomForQueries ⟨m⟩) := by
  rw [buildQueries, firstQueryId, largestId?_eq_some_iff.mpr h]
  dsimp only
  rw [if_neg (by omega)]

/-- What is wrong with the noise is wrong with the queries. -/
theorem buildQueries_of_error (h : corpus.Largest m)
    (hfree : m.toNat + 1 < 2 ^ 64) (hroom : HasRoom s.queries recordSize)
    (hpos : 0 < s.queries) {fault : DatasetFault}
    (hfault : ∀ base ∈ corpus.records, ∀ stream,
      perturb base s.perturbation stream = (.error fault, stream)) :
    buildQueries s corpus = .error (.queriesNotMade fault) := by
  rw [buildQueries_of_free h hfree,
    queries_of_error h.ne_nil hfault hroom hpos]
  rfl

/-- A perturbation that is negative or no finite number is refused when the
first query is made. -/
private theorem buildQueries_of_not_admissible (h : corpus.Largest m)
    (hfree : m.toNat + 1 < 2 ^ 64) (hroom : HasRoom s.queries recordSize)
    (hpos : 0 < s.queries) (hdegree : ¬ Admissible s.perturbation) :
    buildQueries s corpus
      = .error (.queriesNotMade (.invalidPerturbation s.perturbation)) :=
  buildQueries_of_error h hfree hroom hpos fun base _ =>
    perturb_of_not_admissible hdegree base

/-- Noise so wide that its range overflows cannot be drawn, which shows when
the first query is made. -/
private theorem buildQueries_of_not_drawable (h : corpus.Largest m)
    (hfree : m.toNat + 1 < 2 ^ 64) (hroom : HasRoom s.queries recordSize)
    (hpos : 0 < s.queries) (hdegree : Admissible s.perturbation)
    (hwide : ¬ Drawable s.perturbation corpus.dimension) :
    buildQueries s corpus
      = .error (.queriesNotMade (.noiseTooWide s.perturbation)) :=
  buildQueries_of_error h hfree hroom hpos fun base hbase =>
    perturb_of_not_drawable hdegree (corpus.dimension_eq base hbase ▸ hwide)

/-- More queries than there are ids behind the largest one are refused. -/
theorem buildQueries_overflow (h : corpus.Largest m)
    (hfree : m.toNat + 1 < 2 ^ 64) (hroom : HasRoom s.queries recordSize)
    (hdegree : Admissible s.perturbation)
    (hdraw : Drawable s.perturbation corpus.dimension)
    (hover : 2 ^ 64 ≤ m.toNat + s.queries) :
    buildQueries s corpus
      = .error (.queriesNotMade (.idOverflow (m + 1) s.queries)) := by
  have hfirst := toNat_succ hfree
  rw [buildQueries_of_free h hfree, queries_of_room hroom,
    @queriesFrom_overflow corpus.records.toArray corpus.dimension
      s.perturbation (m + 1)
      (by simpa using h.ne_nil) (by simpa using corpus.dimension_eq) hdegree
        hdraw s.queries 0
      (by omega) (by omega) s.queries []]
  rfl

/-- Where queries are made, there is room for them. -/
theorem hasRoom_of_ok {list : List Record}
    (hmade : buildQueries s corpus = .ok list) :
    HasRoom s.queries recordSize := by
  by_contra hno
  have hfree : ∀ m, corpus.Largest m → m.toNat + 1 < 2 ^ 64 := by
    intro m hm
    by_contra hfull
    have hlt := m.toNat_lt
    cases (buildQueries_full hm (by omega)).symm.trans hmade
  cases (buildQueries_of_no_room hfree hno).symm.trans hmade

/-- Where queries are made, none of the reasons to refuse them holds. This is
the converse of the lemmas above, taken together. -/
theorem Largest.free_of_ok (h : corpus.Largest m) {list : List Record}
    (hmade : buildQueries s corpus = .ok list) :
    m.toNat + 1 < 2 ^ 64 ∧
    (0 < s.queries → Admissible s.perturbation ∧
      Drawable s.perturbation corpus.dimension) ∧
    m.toNat + s.queries < 2 ^ 64 := by
  have hroom := hasRoom_of_ok hmade
  have hfree : m.toNat + 1 < 2 ^ 64 := by
    by_contra hno
    have hlt := m.toNat_lt
    cases (buildQueries_full h (by omega)).symm.trans hmade
  have hdegree : 0 < s.queries → Admissible s.perturbation := by
    intro hpos
    by_contra hno
    cases (buildQueries_of_not_admissible h hfree hroom hpos hno).symm.trans
      hmade
  have hdraw : 0 < s.queries → Drawable s.perturbation corpus.dimension := by
    intro hpos
    by_contra hno
    cases (buildQueries_of_not_drawable h hfree hroom hpos (hdegree hpos)
      hno).symm.trans hmade
  refine ⟨hfree, fun hpos => ⟨hdegree hpos, hdraw hpos⟩, ?_⟩
  by_contra hno
  have hpos : 0 < s.queries := by omega
  cases (buildQueries_overflow h hfree hroom (hdegree hpos) (hdraw hpos)
    (by omega)).symm.trans hmade

/-- For each corpus and all settings: which queries there are, or what is
reported instead, with the room for them among the conditions. -/
theorem buildQueries_settles (corpus : Corpus) (s : Settings) :
    corpus.Queried s where
  of_full _ := buildQueries_full
  of_no_room := buildQueries_of_no_room
  of_empty := buildQueries_of_nil
  of_not_admissible _ := buildQueries_of_not_admissible
  of_not_drawable _ := buildQueries_of_not_drawable
  of_overflow _ := buildQueries_overflow
  fresh m hm hfree hroom hnoise hids := by
    obtain ⟨list, hlist, hlengths, hall⟩ :=
      exists_buildQueries hm hfree hnoise hroom hids
    have hlength : list.length = s.queries := by
      rw [← List.length_map fun q : Record => q.id.value.toNat, hlist,
        List.length_range']
    have hmade : buildQueries s corpus = .ok (list.take s.queries) :=
      hall s.queries le_rfl
    rw [← hlength, List.take_length] at hmade
    obtain ⟨hnodup, hfresh⟩ := hm.fresh_of_range hlist
    exact ⟨list, hmade, hlist, hnodup, hfresh, hlengths⟩
  fewer list j hmade hj := by
    have hroom := hasRoom_of_ok hmade
    by_cases hempty : corpus.records = []
    · rw [buildQueries_of_nil hempty hroom] at hmade
      rw [buildQueries_of_nil hempty (hroom.mono hj)]
      cases hmade
      rw [List.take_nil]
    obtain ⟨m, hm⟩ := exists_largest hempty
    obtain ⟨hfree, hnoise, hids⟩ := hm.free_of_ok hmade
    obtain ⟨drawn, -, -, hall⟩ :=
      exists_buildQueries hm hfree hnoise hroom hids
    have hwhole : buildQueries s corpus = .ok (drawn.take s.queries) :=
      hall s.queries le_rfl
    cases hmade.symm.trans hwhole
    rw [hall j hj, List.take_take, min_eq_left hj]

-- -------------------------------------------------------------- an instance

/-- A corpus of one record. -/
def lone : Corpus where
  records := [⟨⟨10⟩, [0.5, 0.5]⟩]
  dimension := 2
  dimension_eq := by decide
  finite := by decide
  nodup := by decide

/-- Ten and the number of queries come to more than the largest number, and
yet it is not for want of ids that no queries are made, but for want of
room. -/
theorem buildQueries_without_room :
    let s : Settings := { queries := 2 ^ 64 - 1 }
    lone.Largest 10 ∧ 2 ^ 64 ≤ 10 + s.queries ∧
    Admissible s.perturbation ∧ Drawable s.perturbation lone.dimension ∧
    buildQueries s lone
      = .error (.queriesNotMade .noRoom) ∧
    buildQueries s lone
      ≠ .error (.queriesNotMade (.idOverflow 11 (2 ^ 64 - 1))) := by
  intro s
  have hlargest : lone.Largest 10 := largestId?_eq_some_iff.mp rfl
  have hrefused : buildQueries s lone
      = .error (.queriesNotMade .noRoom) := by
    rw [buildQueries_of_free hlargest (by decide),
      queries_of_no_room (by decide)]
    rfl
  refine ⟨hlargest, by decide, by decide, by decide, hrefused, ?_⟩
  rw [hrefused]
  intro h
  cases h

end Corpus

end KnnOracle
