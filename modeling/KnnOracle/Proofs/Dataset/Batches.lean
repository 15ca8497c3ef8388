/-
Tables read batch by batch.

A reader goes over a table in batches. It looks at the columns of a whole
batch before it looks at a row, and it numbers a row by the records that it
has so far. None of that shows in its answer: rows are judged one by one
(`Holds`, `Faulty`), from the first one of the table on, and the first that
is at fault decides. `readBatches_settles` says so for every way of cutting
a table into batches.

# The route

Judging is a traversal of the numbered rows (`judgeAll_eq_mapM`), so it can
be split at any row (`judgeAll_append`). A batch of a sheet is a sheet
(`Sheet.take`, `Sheet.drop`), and so the batches judge between them the rows
that they cover (`readBatches_cut_sheet`).
-/
import Mathlib
import KnnOracle.Proofs.Dataset.Columns
import KnnOracle.Proofs.Traversal

namespace KnnOracle

-- =============================================================== sheets

namespace Storage

/-- The integers of a width in bits, with a sign or without. -/
def InRange (signed : Bool) (width : Nat) (n : Int) : Prop :=
  if signed then -2 ^ (width - 1) ≤ n ∧ n < 2 ^ (width - 1) else 0 ≤ n ∧
    n < 2 ^ width

/-- Integers of up to 64 bits that are not negative are words, so that no id is
cut when it is taken over. -/
theorem InRange.lt {signed : Bool} {width : Nat} {n : Int}
    (h : InRange signed width n) (hwidth : width ≤ 64) : n < 2 ^ 64 := by
  have hpower : ∀ k ≤ 64, (2 : Int) ^ k ≤ 2 ^ 64 := fun k hk =>
    pow_le_pow_right₀ (by decide) hk
  unfold InRange at h
  split at h
  · exact h.2.trans_le (hpower (width - 1) (by omega))
  · exact h.2.trans_le (hpower width hwidth)

namespace Table

/-- Cutting a table cuts each of its columns in the same place. -/
private theorem column?_take (n : Nat) (t : Table) (name : String) :
    (t.take n).column? name = (t.column? name).map (Column.take n) := by
  rw [column?, column?, take, List.find?_map, Option.map_map, Option.map_map]
  rfl

private theorem column?_drop (n : Nat) (t : Table) (name : String) :
    (t.drop n).column? name = (t.column? name).map (Column.drop n) := by
  rw [column?, column?, drop, List.find?_map, Option.map_map, Option.map_map]
  rfl

private theorem mem_of_column? {t : Table} {name : String} {column : Column}
    (h : t.column? name = some column) : ∃ c ∈ t.columns, c.2 = column := by
  obtain ⟨c, hc, rfl⟩ := Option.map_eq_some_iff.mp h
  exact ⟨c, List.mem_of_find?_eq_some hc, rfl⟩

end Table

end Storage

namespace Columnar

open Storage

/-- What a table has in one row: an id and an embedding, either of which
may be missing. -/
abbrev Row := Option Int × Option (List (Option Float))

/-- The table has a column of ids and one of embeddings: integers of up to
64 bits, and lists of floating-point numbers. -/
structure Sheet (columns : ColumnNames) (t : Table) (ids : List (Option Int))
    (embeddings : List (Option (List (Option Float)))) : Prop where
  id : ∃ signed width, width ≤ 64 ∧
    (∀ n, some n ∈ ids → InRange signed width n) ∧
    t.column? columns.id = some (.integers signed width ids)
  embedding : ∃ shape item, item.isFloating = true ∧
    t.column? columns.embedding = some (.lists shape item embeddings)

namespace Sheet

variable {columns : ColumnNames} {t : Table} {ids : List (Option Int)}
  {embeddings : List (Option (List (Option Float)))}

/-- A batch of a sheet is a sheet, with the same names and types. So what is
shown of sheets holds of every batch. -/
theorem take (h : Sheet columns t ids embeddings) (n : Nat) :
    Sheet columns (t.take n) (ids.take n) (embeddings.take n) := by
  obtain ⟨signed, width, hwidth, hrange, hid⟩ := h.id
  obtain ⟨shape, item, hfloating, hembedding⟩ := h.embedding
  refine ⟨⟨signed, width, hwidth,
    fun m hm => hrange m (List.mem_of_mem_take hm), ?_⟩,
    ⟨shape, item, hfloating, ?_⟩⟩
  · rw [Table.column?_take, hid]
    rfl
  · rw [Table.column?_take, hembedding]
    rfl

/-- What comes after a batch is a sheet as well, and the next batch is taken
from it. -/
theorem drop (h : Sheet columns t ids embeddings) (n : Nat) :
    Sheet columns (t.drop n) (ids.drop n) (embeddings.drop n) := by
  obtain ⟨signed, width, hwidth, hrange, hid⟩ := h.id
  obtain ⟨shape, item, hfloating, hembedding⟩ := h.embedding
  refine ⟨⟨signed, width, hwidth,
    fun m hm => hrange m (List.mem_of_mem_drop hm), ?_⟩,
    ⟨shape, item, hfloating, ?_⟩⟩
  · rw [Table.column?_drop, hid]
    rfl
  · rw [Table.column?_drop, hembedding]
    rfl

/-- The ids of a sheet are what a column of integers holds, so none of them is
too large for an id. All that can be wrong with one is its sign. -/
theorem lt (h : Sheet columns t ids embeddings) {n : Int} (hn : some n ∈ ids) :
    n < 2 ^ 64 := by
  obtain ⟨signed, width, hwidth, hrange, -⟩ := h.id
  exact (hrange n hn).lt hwidth

/-- In a table whose columns are all of one length there is a pair of entries
for each row. Zipping the two columns therefore loses no row. -/
theorem length_rows (h : Sheet columns t ids embeddings)
    (hlength : ∀ c ∈ t.columns, c.2.length = t.rowCount) :
    (ids.zip embeddings).length = t.rowCount := by
  obtain ⟨signed, width, -, -, hid⟩ := h.id
  obtain ⟨shape, item, -, hembedding⟩ := h.embedding
  obtain ⟨c, hc, hcolumn⟩ := Table.mem_of_column? hid
  obtain ⟨c', hc', hcolumn'⟩ := Table.mem_of_column? hembedding
  have hids := hlength c hc
  have hembeddings := hlength c' hc'
  rw [hcolumn] at hids
  rw [hcolumn'] at hembeddings
  change ids.length = t.rowCount at hids
  change embeddings.length = t.rowCount at hembeddings
  rw [List.length_zip, hids, hembeddings, Nat.min_self]

end Sheet

-- ================================================================= rows

/-- The row holds the record: its id, and all of its components. -/
inductive Holds (dimension : Nat) : Row → Record → Prop where
  | intro (id : UInt64) (values : List Float) (h : values.length = dimension) :
      Holds dimension (some (id.toNat : Int), some (values.map some))
        ⟨⟨id⟩, values⟩

/-- What is at fault in a row. An id that is missing or negative goes
before an embedding that is missing or misses a component, and that before
a wrong number of components. -/
inductive Faulty (columns : ColumnNames) (dimension row : Nat) :
    Row → DatasetFault → Prop where
  | id (id : Option Int) (embedding : Option (List (Option Float)))
      (h : id = none ∨ ∃ n < 0, id = some n) :
      Faulty columns dimension row (id, embedding) (.nullValue columns.id row)
  | embedding (n : Int) (embedding : Option (List (Option Float))) (hn : 0 ≤ n)
      (h : embedding = none ∨ ∃ items, none ∈ items ∧ embedding = some items) :
      Faulty columns dimension row (some n, embedding)
        (.nullValue columns.embedding row)
  | length (n : Int) (values : List Float) (hn : 0 ≤ n)
      (h : values.length ≠ dimension) :
      Faulty columns dimension row (some n, some (values.map some))
        (.dimensionMismatch row dimension values.length)

theorem values_or_none (items : List (Option Float)) :
    (∃ values : List Float, items = values.map some) ∨ none ∈ items := by
  induction items with
  | nil => exact .inl ⟨[], rfl⟩
  | cons item items ih =>
      cases item with
      | none => exact .inr List.mem_cons_self
      | some x =>
          cases ih with
          | inl hvalues =>
              obtain ⟨values, rfl⟩ := hvalues
              exact .inl ⟨x :: values, rfl⟩
          | inr hnone => exact .inr (List.mem_cons_of_mem _ hnone)

private theorem mapM_items_some (values : List Float) :
    (values.map some).mapM (fun item => item) = some values := by
  rw [mapM_eq_some_iff, List.map_id']

private theorem mapM_items_none {items : List (Option Float)}
    (h : none ∈ items) :
    items.mapM (fun item => item) = none := by
  cases hread : items.mapM (fun item => item) with
  | none => rfl
  | some values =>
      rw [mapM_eq_some_iff, List.map_id'] at hread
      rw [hread] at h
      simp at h

variable {columns : ColumnNames} {dimension : Nat}

/-- A row that holds a record is judged to be that record. -/
theorem judge_of_holds {r : Row} {record : Record}
    (h : Holds dimension r record) (row : Nat) :
    judge columns dimension row r.1 r.2 = .ok record := by
  cases h with
  | intro id values hlength =>
      have hread := mapM_items_some values
      rw [List.mapM_map] at hread
      simp [judge, hread, hlength]

/-- A row at fault is refused with its fault. There are four kinds, and each
excludes those that are looked for before it. -/
theorem judge_of_faulty {r : Row} {row : Nat} {fault : DatasetFault}
    (h : Faulty columns dimension row r fault) :
    judge columns dimension row r.1 r.2 = .error fault := by
  cases h with
  | id id embedding h =>
      obtain rfl | ⟨n, hn, rfl⟩ := h
      · rfl
      · obtain ⟨n, rfl⟩ := Int.eq_negSucc_of_lt_zero hn
        rfl
  | embedding n embedding hn h =>
      obtain ⟨n, rfl⟩ := Int.eq_ofNat_of_zero_le hn
      have hnone : (embedding.bind fun items => items.mapM fun item => item)
          = none := by
        obtain rfl | ⟨items, hitems, rfl⟩ := h
        · rfl
        · exact mapM_items_none hitems
      simp [judge, hnone]
  | length n values hn h =>
      obtain ⟨n, rfl⟩ := Int.eq_ofNat_of_zero_le hn
      have hread := mapM_items_some values
      rw [List.mapM_map] at hread
      simp [judge, hread, h]

/-- A row holds a record, or something is at fault in it. With the two lemmas
above this makes both of them equivalences. -/
theorem holds_or_faulty (columns : ColumnNames) (dimension row : Nat) (r : Row)
    (hid : ∀ n, r.1 = some n → n < 2 ^ 64) :
    (∃ record, Holds dimension r record) ∨
      ∃ fault, Faulty columns dimension row r fault := by
  obtain ⟨id, embedding⟩ := r
  cases id with
  | none => exact .inr ⟨_, .id none embedding (.inl rfl)⟩
  | some n =>
      by_cases hn : 0 ≤ n
      · cases embedding with
        | none => exact .inr ⟨_, .embedding n none hn (.inl rfl)⟩
        | some items =>
            cases values_or_none items with
            | inr hnone =>
                exact .inr ⟨_, .embedding n _ hn (.inr ⟨items, hnone, rfl⟩)⟩
            | inl hvalues =>
                obtain ⟨values, rfl⟩ := hvalues
                by_cases hlength : values.length = dimension
                · obtain ⟨k, rfl⟩ := Int.eq_ofNat_of_zero_le hn
                  have hlt : k < 2 ^ 64 := by exact_mod_cast hid k rfl
                  have hholds := Holds.intro (UInt64.ofNat k) values hlength
                  rw [UInt64.toNat_ofNat_of_lt' hlt] at hholds
                  exact .inl ⟨_, hholds⟩
                · exact .inr ⟨_, .length n values hn hlength⟩
      · exact .inr ⟨_, .id _ embedding (.inr ⟨n, by omega, rfl⟩)⟩

/-- The program judges a row in steps, and here is what they come to: a row is
good if it holds a record of the dimension. -/
private theorem judge_eq_ok_iff {r : Row}
    (hid : ∀ n, r.1 = some n → n < 2 ^ 64) {row : Nat} {record : Record} :
    judge columns dimension row r.1 r.2 = .ok record ↔
      Holds dimension r record := by
  refine ⟨fun h => ?_, fun h => judge_of_holds h row⟩
  cases holds_or_faulty columns dimension row r hid with
  | inl hholds =>
      obtain ⟨other, hother⟩ := hholds
      rw [judge_of_holds hother row] at h
      cases h
      exact hother
  | inr hfaulty =>
      obtain ⟨fault, hfault⟩ := hfaulty
      rw [judge_of_faulty hfault] at h
      cases h

private theorem judge_eq_error_iff {r : Row}
    (hid : ∀ n, r.1 = some n → n < 2 ^ 64) {row : Nat} {fault : DatasetFault} :
    judge columns dimension row r.1 r.2 = .error fault ↔
      Faulty columns dimension row r fault := by
  refine ⟨fun h => ?_, judge_of_faulty⟩
  cases holds_or_faulty columns dimension row r hid with
  | inl hholds =>
      obtain ⟨record, hrecord⟩ := hholds
      rw [judge_of_holds hrecord row] at h
      cases h
  | inr hfaulty =>
      obtain ⟨other, hother⟩ := hfaulty
      rw [judge_of_faulty hother] at h
      cases h
      exact hother

-- ============================================================= all rows

/-- Judges a row with its number. -/
def judgeNumbered (columns : ColumnNames) (dimension : Nat) (r : Row × Nat) :
    Except DatasetFault Record :=
  judge columns dimension r.2 r.1.1 r.1.2

/-- Judging goes over the numbered rows, so that the laws of traversals apply.
The program counts the rows as it goes. -/
theorem judgeAll_eq_mapM (row : Nat) (rows : List Row) :
    judgeAll columns dimension row rows
      = (rows.zipIdx row).mapM (judgeNumbered columns dimension) := by
  induction rows generalizing row with
  | nil => rfl
  | cons r rows ih =>
      obtain ⟨id, embedding⟩ := r
      rw [judgeAll, List.zipIdx_cons]
      cases hjudge : judge columns dimension row id embedding with
      | error e =>
          have hnumbered : judgeNumbered columns dimension
            ((id, embedding), row) = .error e := hjudge
          rw [mapM_cons_error hnumbered]
      | ok record =>
          have hnumbered : judgeNumbered columns dimension
              ((id, embedding), row) = .ok record :=
            hjudge
          rw [mapM_cons_ok hnumbered, ih]
          cases (rows.zipIdx (row + 1)).mapM
            (judgeNumbered columns dimension) with
          | error e => rfl
          | ok records => rfl

/-- Rows can be judged in two parts; the second goes on with the numbers of the
first. This is why cutting into batches does not show in the row of a fault. -/
theorem judgeAll_append (row : Nat) (rows others : List Row) :
    judgeAll columns dimension row (rows ++ others)
      = match judgeAll columns dimension row rows with
        | .error e => .error e
        | .ok head =>
            (judgeAll columns dimension (row + rows.length) others).map
              (head ++ ·) := by
  simp only [judgeAll_eq_mapM, List.zipIdx_append, List.mapM_append]
  cases (rows.zipIdx row).mapM (judgeNumbered columns dimension) with
  | error e => rfl
  | ok head =>
      cases (others.zipIdx (row + rows.length)).mapM
        (judgeNumbered columns dimension) with
      | error e => rfl
      | ok tail => rfl

theorem length_of_judgeAll {row : Nat} {rows : List Row}
    {records : List Record}
    (h : judgeAll columns dimension row rows = .ok records) :
    records.length = rows.length := by
  rw [judgeAll_eq_mapM, mapM_eq_ok_iff] at h
  rw [← h.length_eq, List.length_zipIdx]

private theorem judgeAll_eq_ok_iff {rows : List Row}
    (hid : ∀ r ∈ rows, ∀ n, r.1 = some n → n < 2 ^ 64) {row : Nat}
    {records : List Record} :
    judgeAll columns dimension row rows = .ok records ↔
      List.Forall₂ (Holds dimension) rows records := by
  have hnumbered : List.Forall₂ (Holds dimension) rows records ↔
      List.Forall₂ (fun r => Holds dimension r.1) (rows.zipIdx row)
        records := by
    have hrows :=
      @List.forall₂_map_left_iff _ _ _ (Holds dimension) Prod.fst
        (rows.zipIdx row)
      records
    rwa [List.zipIdx_map_fst] at hrows
  rw [judgeAll_eq_mapM, mapM_eq_ok_iff, hnumbered]
  constructor
  · intro h
    have hmem : ∀ r ∈ rows.zipIdx row, r.1 ∈ rows :=
      fun r => List.fst_mem_of_mem_zipIdx
    refine ((List.forall₂_and_left _ _).mpr ⟨hmem, h⟩).imp ?_
    rintro r record ⟨hr, hjudge⟩
    exact (judge_eq_ok_iff (hid r.1 hr)).mp hjudge
  · intro h
    exact h.imp fun r record hholds => judge_of_holds hholds r.2

/-- The rows are judged in their order, so the first faulty one is named, by
its number in the whole file. -/
private theorem judgeAll_eq_error_iff {rows : List Row}
    (hid : ∀ r ∈ rows, ∀ n, r.1 = some n → n < 2 ^ 64) {row : Nat}
    {fault : DatasetFault} :
    judgeAll columns dimension row rows = .error fault ↔
      ∃ before r after, rows = before ++ r :: after ∧
        (∀ x ∈ before, ∃ record, Holds dimension x record) ∧
        Faulty columns dimension (row + before.length) r fault := by
  rw [judgeAll_eq_mapM, mapM_eq_error_iff]
  constructor
  · rintro ⟨before, r, after, hsplit, hbefore, hr⟩
    obtain ⟨before, others, rfl, rfl, hothers⟩ :=
      List.zipIdx_eq_append_iff.mp hsplit
    obtain ⟨r, after, rfl, rfl, -⟩ := List.zipIdx_eq_cons_iff.mp hothers.symm
    refine ⟨before, r, after, rfl, fun x hx => ?_, ?_⟩
    · rw [← List.zipIdx_map_fst row before] at hx
      obtain ⟨y, hy, rfl⟩ := List.mem_map.mp hx
      obtain ⟨record, hrecord⟩ := hbefore y hy
      have hmem := List.fst_mem_of_mem_zipIdx hy
      exact ⟨record,
        (judge_eq_ok_iff (hid y.1 (List.mem_append_left _ hmem))).mp hrecord⟩
    · apply (judge_eq_error_iff (hid r _)).mp hr
      simp
  · rintro ⟨before, r, after, rfl, hbefore, hr⟩
    refine ⟨before.zipIdx row, (r, row + before.length),
      after.zipIdx (row + before.length + 1), ?_, ?_, judge_of_faulty hr⟩
    · rw [List.zipIdx_append, List.zipIdx_cons]
    · intro x hx
      obtain ⟨record, hrecord⟩ := hbefore x.1 (List.fst_mem_of_mem_zipIdx hx)
      exact ⟨record, judge_of_holds hrecord x.2⟩

-- ============================================================== batches

section sheet

variable {t : Table} {ids : List (Option Int)}
  {embeddings : List (Option (List (Option Float)))}

/-- The columns of a sheet pass, so its rows are judged. That columns are
missing or of another type is settled before any row. -/
theorem readBatch_sheet (h : Sheet columns t ids embeddings) (row : Nat) :
    readBatch columns dimension row t
      = judgeAll columns dimension row (ids.zip embeddings) := by
  obtain ⟨signed, width, -, -, hid⟩ := h.id
  obtain ⟨shape, item, hfloating, hembedding⟩ := h.embedding
  have hids : column? t columns.id = .ok (.integers signed width ids) := by
    rw [column?, hid]
  have hembeddings : column? t columns.embedding
      = .ok (.lists shape item embeddings) := by
    rw [column?, hembedding]
  have hitems : embeddings? columns.embedding (.lists shape item embeddings)
      = .ok embeddings := by
    rw [embeddings?, if_pos hfloating]
  rw [readBatch, hids, hembeddings]
  simp only [bind, Except.bind, ids?, hitems]

/-- Batches judge the rows that they cover, as one list. The induction is on
the sizes of the batches, with the number of the next row as what is carried
along. -/
theorem readBatches_cut_sheet (h : Sheet columns t ids embeddings)
    (sizes : List Nat) (row : Nat) :
    readBatches columns dimension row (t.cut sizes)
      = judgeAll columns dimension row
        ((ids.zip embeddings).take sizes.sum) := by
  induction sizes generalizing t ids embeddings row with
  | nil => rfl
  | cons n sizes ih =>
      have hhead : (ids.take n).zip (embeddings.take n)
          = (ids.zip embeddings).take n :=
        List.take_zipWith.symm
      have htail : (ids.drop n).zip (embeddings.drop n)
          = (ids.zip embeddings).drop n :=
        List.drop_zipWith.symm
      rw [Table.cut, readBatches, readBatch_sheet (h.take n), hhead,
        List.sum_cons, List.take_add, judgeAll_append]
      cases hjudge : judgeAll columns dimension row
        ((ids.zip embeddings).take n) with
      | error e => rfl
      | ok head =>
          -- the number of records so far is the number of rows so far
          have hnext := ih (h.drop n) (row + head.length)
          rw [htail] at hnext
          dsimp only
          rw [hnext, length_of_judgeAll hjudge]
          cases judgeAll columns dimension
            (row + ((ids.zip embeddings).take n).length)
            (((ids.zip embeddings).drop n).take sizes.sum) with
          | error e => rfl
          | ok tail => rfl

/-- However a table is cut into batches, its rows are judged one by one. If
each of them holds a record, these records are the answer; otherwise it is
the fault of the first row that is at fault, with the number of that row in
the table. A row that is read is read whole: `Holds` leaves no component
out and adds none. -/
theorem readBatches_settles (h : Sheet columns t ids embeddings)
    (hlength : ∀ c ∈ t.columns, c.2.length = t.rowCount) (dimension : Nat)
    {sizes : List Nat} (hsizes : sizes.sum = t.rowCount) :
    readBatches columns dimension 0 (t.cut sizes) = read columns dimension t ∧
    (ids.zip embeddings).length = t.rowCount ∧
    (∀ records, readBatches columns dimension 0 (t.cut sizes) = .ok records ↔
      List.Forall₂ (Holds dimension) (ids.zip embeddings) records) ∧
    (∀ fault, readBatches columns dimension 0 (t.cut sizes) = .error fault ↔
      ∃ before r after, ids.zip embeddings = before ++ r :: after ∧
        (∀ x ∈ before, ∃ record, Holds dimension x record) ∧
        Faulty columns dimension before.length r fault) := by
  have hrows := h.length_rows hlength
  have hid : ∀ r ∈ ids.zip embeddings, ∀ n, r.1 = some n → n < 2 ^ 64 := by
    rintro ⟨id, embedding⟩ hr n rfl
    exact h.lt (List.of_mem_zip hr).1
  have hall : ∀ sizes : List Nat, sizes.sum = t.rowCount →
      readBatches columns dimension 0 (t.cut sizes)
        = judgeAll columns dimension 0 (ids.zip embeddings) := by
    intro sizes hsum
    rw [readBatches_cut_sheet h, hsum, ← hrows, List.take_length]
  rw [read, Table.batches, hall _ (Table.sum_batchSizes 1024 t.rowCount),
    hall sizes hsizes]
  refine ⟨rfl, hrows, fun records => judgeAll_eq_ok_iff hid, fun fault => ?_⟩
  have hfault := @judgeAll_eq_error_iff columns dimension _ hid 0 fault
  simpa only [Nat.zero_add] using hfault

end sheet

/-- Three rows in two batches. The second row has a negative id and no
embedding, and the third is too long. -/
theorem readBatches_settles_of_negative :
    readBatches {} 1 0
        (Table.cut [2, 1]
          ⟨[("id", .integers true 64 [some 5, some (-4), some 6]),
            ("emb", .lists (.fixedSize 1) .float32
              [some [some 1.0], none, some [some 2.0, some 3.0]])]⟩)
      = .error (.nullValue "id" 1) := by
  have hsheet : Sheet {}
      ⟨[("id", .integers true 64 [some 5, some (-4), some 6]),
        ("emb", .lists (.fixedSize 1) .float32
          [some [some 1.0], none, some [some 2.0, some 3.0]])]⟩
      [some 5, some (-4), some 6]
        [some [some 1.0], none, some [some 2.0, some 3.0]] := by
    refine ⟨⟨true, 64, by decide, ?_, rfl⟩, ⟨.fixedSize 1, .float32, rfl, rfl⟩⟩
    simp [InRange]
  apply ((readBatches_settles hsheet (by simp; decide) 1 (by decide)).2.2.2
    _).mpr
  refine ⟨[(some 5, some [some 1.0])], (some (-4), none),
    [(some 6, some [some 2.0, some 3.0])], rfl, ?_,
    .id _ _ (.inr ⟨-4, by decide, rfl⟩)⟩
  rintro x hx
  rw [List.mem_singleton.mp hx]
  exact ⟨⟨⟨5⟩, [1.0]⟩, .intro 5 [1.0] rfl⟩

end Columnar

end KnnOracle
