/-
What is read of a file of rows.

A file is read if it is complete rows and nothing else. Otherwise there is
a first row that is not complete, and the answer says where it stands and
what is wrong with it. `parse_settles` says both in terms of the bytes:
`IsRow` is what a row has to be, `recordOf` the record that it holds, and
`faultOf` the fault of a file that goes on with something else.

# The route

The reader looks at one row and goes on behind it (`parseFrom_eq`). Any
bytes are complete rows and a rest, and the rest is empty or does not begin
with a row (`exists_rows`). So the rows are read by induction on their
number, and the answer is known from the rest (`parse_rows`). Rows have one
size, so bytes are rows and a rest in one way only; that no file is both
read and refused needs no argument of its own, since the answers differ.
-/
import KnnOracle.Dataset.Fvecs

namespace KnnOracle.Fvecs

open Decimal

-- ================================================================= rows

/-- The number of bytes of a row. -/
def rowSize (dimension : Nat) : Nat := 4 + 4 * dimension

/-- The number that the first four bytes announce: a signed word in two's
complement. -/
def header (bytes : List UInt8) : Int :=
  (ofLittleEndian (bytes.take 4) : Int).bmod (2 ^ 32)

/-- The bytes are a complete row. -/
structure IsRow (dimension : Nat) (row : List UInt8) : Prop where
  length_eq : row.length = rowSize dimension
  header_eq : header row = dimension

instance (dimension : Nat) (row : List UInt8) :
    Decidable (IsRow dimension row) :=
  decidable_of_iff (row.length = rowSize dimension ∧ header row = dimension)
    ⟨fun h => ⟨h.1, h.2⟩, fun h => ⟨h.length_eq, h.header_eq⟩⟩

/-- The component with the number `j` of a row. -/
def component (row : List UInt8) (j : Nat) : Float :=
  BinaryFormat.binary32.widen (ofLittleEndian ((row.drop (4 + 4 * j)).take 4))

/-- The record that the row with the number `i` holds. -/
def recordOf (dimension i : Nat) (row : List UInt8) : Record :=
  ⟨⟨UInt64.ofNat i⟩, (List.range dimension).map (component row)⟩

/-- What is wrong with a file whose first `row` rows are complete, where
`rest` comes after them and does not begin with a row. -/
def faultOf (dimension row : Nat) (rest : List UInt8) : DatasetFault :=
  if rest.length < 4 then .truncated (row * rowSize dimension)
  else if header rest ≠ dimension then
    .dimensionMismatch row dimension (max (header rest) 0).toNat
  else .truncated (row * rowSize dimension)

-- ============================================================ the header

private theorem word_lt (b0 b1 b2 b3 : UInt8) :
    ofLittleEndian [b0, b1, b2, b3] < 2 ^ 32 := by
  have h := ofLittleEndian_lt [b0, b1, b2, b3]
  simpa using h

theorem header_congr {bytes bytes' : List UInt8}
    (h : bytes.take 4 = bytes'.take 4) :
    header bytes = header bytes' :=
  congrArg (fun word => (ofLittleEndian word : Int).bmod (2 ^ 32)) h

/-- A word with a clear sign bit announces itself, and any other a negative
number. -/
theorem bmod_word {n : Nat} (h : n < 2 ^ 32) :
    (n : Int).bmod (2 ^ 32) = if n < 2 ^ 31 then (n : Int)
      else (n : Int) - 2 ^ 32 := by
  rw [Int.bmod_def]
  omega

/-- A header is signed, so the upper half of these numbers is negative. -/
private theorem header_cons (b0 b1 b2 b3 : UInt8) (rest : List UInt8) :
    header (b0 :: b1 :: b2 :: b3 :: rest)
      = if ofLittleEndian [b0, b1, b2, b3] < 2 ^ 31 then
        (ofLittleEndian [b0, b1, b2, b3] : Int)
        else (ofLittleEndian [b0, b1, b2, b3] : Int) - 2 ^ 32 := by
  exact bmod_word (word_lt b0 b1 b2 b3)

/-- The reader's test of a header, and what it reports of one. The reader
compares numbers of different types, and this says what that comes to. -/
theorem header_ne_iff {b0 b1 b2 b3 : UInt8} {rest : List UInt8}
    {dimension : Nat} :
    header (b0 :: b1 :: b2 :: b3 :: rest) ≠ dimension ↔
      ofLittleEndian [b0, b1, b2, b3] ≥ 2 ^ 31 ∨
        ofLittleEndian [b0, b1, b2, b3] ≠ dimension := by
  have hlt := word_lt b0 b1 b2 b3
  rw [header_cons]
  split <;> omega

/-- A negative header announces no components at all. -/
private theorem announced_eq (b0 b1 b2 b3 : UInt8) (rest : List UInt8) :
    announced (ofLittleEndian [b0, b1, b2, b3])
      = (max (header (b0 :: b1 :: b2 :: b3 :: rest)) 0).toNat := by
  have hlt := word_lt b0 b1 b2 b3
  rw [header_cons, announced]
  split <;> omega

-- ======================================================== the components

private theorem components_eq {dimension : Nat} {bytes : List UInt8}
    (h : bytes.length = 4 * dimension) :
    components bytes = (List.range dimension).map fun j =>
      BinaryFormat.binary32.widen
        (ofLittleEndian ((bytes.drop (4 * j)).take 4)) := by
  induction dimension generalizing bytes with
  | zero =>
      obtain rfl : bytes = [] := List.eq_nil_of_length_eq_zero h
      simp [components, chunks]
  | succ dimension ih =>
      have hfirst : (bytes.take 4).length = 4 := by
        rw [List.length_take]
        omega
      have hrest : (bytes.drop 4).length = 4 * dimension := by
        rw [List.length_drop]
        omega
      have hcut := chunks_append (by decide : 0 < 4) hfirst (bytes.drop 4)
      rw [List.take_append_drop] at hcut
      rw [components, hcut, List.map_cons, ← components, ih hrest,
        List.range_succ_eq_map, List.map_cons, List.map_map]
      congr 1
      apply List.map_congr_left
      intro j _
      simp only [Function.comp_apply, List.drop_drop]
      congr 4
      omega

/-- What is read behind a header are the components of the row. -/
theorem components_row {dimension : Nat} {bytes : List UInt8}
    (h : rowSize dimension ≤ bytes.length) :
    components ((bytes.drop 4).take (4 * dimension))
      = (List.range dimension).map
        (component (bytes.take (rowSize dimension))) := by
  unfold rowSize at h ⊢
  have hlength : ((bytes.drop 4).take (4 * dimension)).length
      = 4 * dimension := by
    rw [List.length_take, List.length_drop]
    omega
  rw [components_eq hlength]
  apply List.map_congr_left
  intro j hj
  have hj := List.mem_range.mp hj
  -- the word lies within the row
  rw [component, List.drop_take, List.drop_take, List.take_take,
    List.take_take, List.drop_drop, Nat.min_eq_left (by omega),
    Nat.min_eq_left (by omega)]

-- ============================================================== one row

/-- What the reader makes of the next row. The specification has a row where
the reader has offsets into the file, and the two are matched here. -/
theorem parseFrom_eq (dimension row offset : Nat) {bytes : List UInt8}
    (h : bytes ≠ []) :
    parseFrom dimension row offset bytes
      = if bytes.length < 4 then .error (.truncated offset)
        else if header bytes ≠ dimension then
          .error (.dimensionMismatch row dimension
            (max (header bytes) 0).toNat)
        else if bytes.length < rowSize dimension then
          .error (.truncated offset)
        else (parseFrom dimension (row + 1) (offset + rowSize dimension)
            (bytes.drop (rowSize dimension))).map
          (recordOf dimension row (bytes.take (rowSize dimension)) :: ·) := by
  match bytes with
  | [] => exact absurd rfl h
  | [_] => rw [parseFrom] <;> simp
  | [_, _] => rw [parseFrom] <;> simp
  | [_, _, _] => rw [parseFrom] <;> simp
  | b0 :: b1 :: b2 :: b3 :: rest =>
      have hshort : ¬(b0 :: b1 :: b2 :: b3 :: rest).length < 4 := by
        simp only [List.length_cons]
        omega
      rw [if_neg hshort, parseFrom]
      dsimp only
      by_cases hheader : header (b0 :: b1 :: b2 :: b3 :: rest) ≠ dimension
      · rw [if_pos hheader, if_pos (header_ne_iff.mp hheader),
          announced_eq b0 b1 b2 b3 rest]
      rw [if_neg hheader, if_neg (mt header_ne_iff.mpr hheader),
        List.length_take]
      by_cases hwhole : (b0 :: b1 :: b2 :: b3 :: rest).length
        < rowSize dimension
      · rw [if_pos hwhole, if_pos]
        simp only [List.length_cons, rowSize] at hwhole
        omega
      · have hread := components_row (Nat.le_of_not_lt hwhole)
        have hnext : (b0 :: b1 :: b2 :: b3 :: rest).drop (rowSize dimension)
            = rest.drop (4 * dimension) := List.drop_drop.symm
        rw [if_neg hwhole, if_neg, hnext, Nat.add_assoc]
        · change components (rest.take (4 * dimension)) = _ at hread
          rw [hread]
          change _
            = (parseFrom dimension (row + 1) (offset + (4 + 4 * dimension))
            (rest.drop (4 * dimension))).map _
          cases parseFrom dimension (row + 1) (offset + (4 + 4 * dimension))
            (rest.drop (4 * dimension)) with
          | error e => rfl
          | ok records => rfl
        · simp only [List.length_cons, rowSize] at hwhole
          omega

/-- A row of the dimension is taken off, and reading goes on behind it, one row
and its bytes further. -/
private theorem parseFrom_row {dimension : Nat} {row : List UInt8}
    (h : IsRow dimension row) (i offset : Nat) (rest : List UInt8) :
    parseFrom dimension i offset (row ++ rest)
      = (parseFrom dimension (i + 1) (offset + rowSize dimension) rest).map
          (recordOf dimension i row :: ·) := by
  have hlength := h.length_eq
  have hpos : 4 ≤ row.length := by
    rw [hlength, rowSize]
    omega
  have hne : row ++ rest ≠ [] := by
    apply List.append_ne_nil_of_left_ne_nil
    apply List.ne_nil_of_length_pos
    omega
  have hheader : header (row ++ rest) = dimension :=
    (header_congr (List.take_append_of_le_length hpos)).trans h.header_eq
  rw [parseFrom_eq dimension i offset hne, if_neg,
    if_neg (not_not_intro hheader), if_neg, List.take_left' hlength,
    List.drop_left' hlength]
  · rw [List.length_append]
    omega
  · rw [List.length_append]
    omega

/-- With the right header in front, a row can only be too short. -/
theorem length_lt_of_not_isRow {dimension : Nat} {rest : List UInt8}
    (h : ¬IsRow dimension (rest.take (rowSize dimension)))
    (hheader : header rest = dimension) :
    rest.length < rowSize dimension := by
  refine Nat.lt_of_not_le fun hwhole => h ⟨?_, ?_⟩
  · rw [List.length_take, Nat.min_eq_left hwhole]
  · refine (header_congr ?_).trans hheader
    rw [List.take_take, Nat.min_eq_left (by unfold rowSize; omega)]

/-- What does not begin with a row is refused, with the place of the row. -/
theorem parseFrom_fault {dimension : Nat} {rest : List UInt8} (hne : rest ≠ [])
    (h : ¬IsRow dimension (rest.take (rowSize dimension))) (i : Nat) :
    parseFrom dimension i (i * rowSize dimension) rest
      = .error (faultOf dimension i rest) := by
  rw [parseFrom_eq dimension i _ hne, faultOf]
  by_cases hshort : rest.length < 4
  · rw [if_pos hshort, if_pos hshort]
  rw [if_neg hshort, if_neg hshort]
  by_cases hheader : header rest ≠ dimension
  · rw [if_pos hheader, if_pos hheader]
  · rw [if_neg hheader, if_neg hheader,
      if_pos (length_lt_of_not_isRow h (Decidable.not_not.mp hheader))]

/-- A wrong dimension is only found where there is a header to tell it. -/
private theorem of_faultOf_eq_dimensionMismatch
    {dimension i row expected found : Nat} {rest : List UInt8}
    (h : faultOf dimension i rest = .dimensionMismatch row expected found) :
    row = i ∧ 4 ≤ rest.length := by
  unfold faultOf at h
  split at h
  · cases h
  · next hlong =>
      split at h
      · cases h
        exact ⟨rfl, Nat.le_of_not_lt hlong⟩
      · cases h

/-- A row is truncated if its own dimension is right, so the bytes are too
few. -/
private theorem of_faultOf_eq_truncated {dimension i offset : Nat}
    {rest : List UInt8}
    (hrest : ¬IsRow dimension (rest.take (rowSize dimension)))
    (h : faultOf dimension i rest = .truncated offset) :
    offset = i * rowSize dimension ∧ rest.length < rowSize dimension := by
  unfold faultOf at h
  split at h
  · next hshort =>
      cases h
      exact ⟨rfl, by unfold rowSize; omega⟩
  · split at h
    · cases h
    · next hheader =>
        cases h
        exact ⟨rfl, length_lt_of_not_isRow hrest
          (Decidable.not_not.mp hheader)⟩

-- ============================================================= the file

/-- Rows are read one by one, whatever comes after them. The induction is on
the rows, with the number of the next one. -/
theorem parseFrom_rows {dimension : Nat} {rows : List (List UInt8)}
    (h : ∀ row ∈ rows, IsRow dimension row) (i : Nat) (rest : List UInt8) :
    parseFrom dimension i (i * rowSize dimension) (rows.flatten ++ rest)
      = (parseFrom dimension (i + rows.length)
        ((i + rows.length) * rowSize dimension) rest).map
          (rows.mapIdx (fun j => recordOf dimension (i + j)) ++ ·) := by
  induction rows generalizing i with
  | nil =>
      show parseFrom dimension i (i * rowSize dimension) rest = _
      cases parseFrom dimension i (i * rowSize dimension) rest with
      | error e => simp [Except.map]
      | ok records => simp [Except.map]
  | cons row rows ih =>
      obtain ⟨hrow, hrows⟩ := List.forall_mem_cons.mp h
      have hnext := ih hrows (i + 1)
      have hoffset : i * rowSize dimension + rowSize dimension
          = (i + 1) * rowSize dimension :=
        (Nat.succ_mul i (rowSize dimension)).symm
      rw [List.flatten_cons, List.append_assoc, parseFrom_row hrow,
        hoffset, hnext,
        List.length_cons, List.mapIdx_cons, Nat.add_right_comm i 1,
          Nat.add_assoc i rows.length 1]
      have hindex : ∀ j, i + 1 + j = i + (j + 1) := fun j => by omega
      simp only [hindex]
      cases parseFrom dimension (i + (rows.length + 1))
        ((i + (rows.length + 1)) * rowSize dimension) rest with
      | error e => rfl
      | ok records => rfl

/-- Any bytes are complete rows and a rest that does not begin with one. So
there are no files of which nothing is known. -/
theorem exists_rows (dimension : Nat) (bytes : List UInt8) :
    ∃ (rows : List (List UInt8)) (rest : List UInt8),
      bytes = rows.flatten ++ rest ∧
      (∀ row ∈ rows, IsRow dimension row) ∧
      (rest = [] ∨ rest ≠ [] ∧
        ¬IsRow dimension (rest.take (rowSize dimension))) := by
  induction hlength : bytes.length using Nat.strongRecOn
    generalizing bytes with
  | ind n ih =>
      subst hlength
      by_cases hrow : IsRow dimension (bytes.take (rowSize dimension))
      · have hshorter : (bytes.drop (rowSize dimension)).length
            < bytes.length := by
          have hsize := hrow.length_eq
          rw [List.length_take] at hsize
          rw [List.length_drop]
          unfold rowSize at hsize ⊢
          omega
        obtain ⟨rows, rest, hrest, hrows, hend⟩ := ih _ hshorter _ rfl
        refine ⟨bytes.take (rowSize dimension) :: rows, rest, ?_,
          List.forall_mem_cons.mpr ⟨hrow, hrows⟩, hend⟩
        rw [List.flatten_cons, List.append_assoc, ← hrest,
          List.take_append_drop]
      · refine ⟨[], bytes, rfl,
          fun row hmem => absurd hmem List.not_mem_nil, ?_⟩
        by_cases hempty : bytes = []
        · exact Or.inl hempty
        · exact Or.inr ⟨hempty, hrow⟩

/-- A file of complete rows is read. -/
theorem parse_rows {dimension : Nat} {rows : List (List UInt8)}
    (h : ∀ row ∈ rows, IsRow dimension row) :
    parse dimension rows.flatten = .ok (rows.mapIdx (recordOf dimension)) := by
  have hread := parseFrom_rows h 0 []
  rw [Nat.zero_mul, List.append_nil] at hread
  rw [parse, hread, parseFrom]
  simp [Except.map]

/-- A file of complete rows and something else behind them is refused, with the
fault of what is behind. -/
theorem parse_fault {dimension : Nat} {rows : List (List UInt8)}
    {rest : List UInt8} (h : ∀ row ∈ rows, IsRow dimension row)
    (hne : rest ≠ [])
    (hrest : ¬IsRow dimension (rest.take (rowSize dimension))) :
    parse dimension (rows.flatten ++ rest)
      = .error (faultOf dimension rows.length rest) := by
  have hread := parseFrom_rows h 0 rest
  rw [Nat.zero_mul, Nat.zero_add, parseFrom_fault hne hrest] at hread
  exact hread

/-- Rows have all the same length, so the offset of a row is known from its
number. -/
private theorem length_flatten_rows {dimension : Nat}
    {rows : List (List UInt8)} (h : ∀ row ∈ rows, IsRow dimension row) :
    rows.flatten.length = rows.length * rowSize dimension := by
  induction rows with
  | nil => simp
  | cons row rows ih =>
      obtain ⟨hrow, hrows⟩ := List.forall_mem_cons.mp h
      rw [List.flatten_cons, List.length_append, hrow.length_eq, ih hrows,
        List.length_cons, Nat.succ_mul, Nat.add_comm]

-- ==================================================== the main statement

/-- A file is read if it is rows of the dimension and nothing else. -/
theorem parse_eq_ok_iff {dimension : Nat} {bytes : List UInt8}
    {records : List Record} :
    parse dimension bytes = .ok records ↔
      ∃ rows : List (List UInt8), bytes = rows.flatten ∧
        (∀ row ∈ rows, IsRow dimension row) ∧
        records = rows.mapIdx (recordOf dimension) := by
  constructor
  · intro h
    obtain ⟨rows, rest, rfl, hrows, rfl | ⟨hne, hrest⟩⟩ :=
      exists_rows dimension bytes
    · rw [List.append_nil, parse_rows hrows, Except.ok.injEq] at h
      exact ⟨rows, List.append_nil _, hrows, h.symm⟩
    · rw [parse_fault hrows hne hrest] at h
      cases h
  · rintro ⟨rows, rfl, hrows, rfl⟩
    exact parse_rows hrows

/-- Otherwise some rows come first, and the fault is that of what stands behind
them. -/
private theorem parse_eq_error_iff {dimension : Nat} {bytes : List UInt8}
    {fault : DatasetFault} :
    parse dimension bytes = .error fault ↔
      ∃ (rows : List (List UInt8)) (rest : List UInt8),
        bytes = rows.flatten ++ rest ∧
        (∀ row ∈ rows, IsRow dimension row) ∧
        rest ≠ [] ∧ ¬IsRow dimension (rest.take (rowSize dimension)) ∧
        fault = faultOf dimension rows.length rest := by
  constructor
  · intro h
    obtain ⟨rows, rest, rfl, hrows, rfl | ⟨hne, hrest⟩⟩ :=
      exists_rows dimension bytes
    · rw [List.append_nil, parse_rows hrows] at h
      cases h
    · rw [parse_fault hrows hne hrest, Except.error.injEq] at h
      exact ⟨rows, rest, rfl, hrows, hne, hrest, h.symm⟩
  · rintro ⟨rows, rest, rfl, hrows, hne, hrest, rfl⟩
    exact parse_fault hrows hne hrest

-- ==================================================== the main statement

/-- A file is read if and only if it is complete rows and nothing else;
otherwise the fault is that of the first row that is not complete, and what
it names lies within the bytes. Each record has the number of its row as its
id, as long as that is a 64-bit number. -/
theorem parse_settles (dimension : Nat) (bytes : List UInt8) :
    (∀ records, parse dimension bytes = .ok records ↔
      ∃ rows : List (List UInt8), bytes = rows.flatten ∧
        (∀ row ∈ rows, IsRow dimension row) ∧
        records = rows.mapIdx (recordOf dimension)) ∧
    (∀ fault, parse dimension bytes = .error fault ↔
      ∃ (rows : List (List UInt8)) (rest : List UInt8),
        bytes = rows.flatten ++ rest ∧
        (∀ row ∈ rows, IsRow dimension row) ∧
        rest ≠ [] ∧ ¬IsRow dimension (rest.take (rowSize dimension)) ∧
        fault = faultOf dimension rows.length rest) ∧
    (∀ row expected found,
      parse dimension bytes = .error (.dimensionMismatch row expected found) →
        row * rowSize dimension + 4 ≤ bytes.length) ∧
    (∀ offset, parse dimension bytes = .error (.truncated offset) →
      offset < bytes.length ∧ bytes.length < offset + rowSize dimension) ∧
    ∀ records i r, parse dimension bytes = .ok records →
      records[i]? = some r → i < 2 ^ 64 → r.id.value.toNat = i := by
  refine ⟨fun _ => parse_eq_ok_iff, fun _ => parse_eq_error_iff, ?_, ?_, ?_⟩
  · intro row expected found h
    obtain ⟨rows, rest, rfl, hrows, -, -, hfault⟩ := parse_eq_error_iff.mp h
    obtain ⟨rfl, hlong⟩ := of_faultOf_eq_dimensionMismatch hfault.symm
    rw [List.length_append, length_flatten_rows hrows]
    omega
  · intro offset h
    obtain ⟨rows, rest, rfl, hrows, hne, hrest, hfault⟩ :=
      parse_eq_error_iff.mp h
    obtain ⟨rfl, hshort⟩ := of_faultOf_eq_truncated hrest hfault.symm
    have hpos := List.length_pos_iff.mpr hne
    rw [List.length_append, length_flatten_rows hrows]
    omega
  · intro records i r h hr hi
    obtain ⟨rows, rfl, hrows, rfl⟩ := parse_eq_ok_iff.mp h
    rw [List.getElem?_mapIdx, Option.map_eq_some_iff] at hr
    obtain ⟨row, -, rfl⟩ := hr
    exact UInt64.toNat_ofNat_of_lt' hi

end KnnOracle.Fvecs
