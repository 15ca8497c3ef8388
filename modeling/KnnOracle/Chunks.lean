/-
Cutting a list into consecutive pieces.

`chunks size xs` is `xs` cut into pieces of `size` elements, the last one
shorter if the length is no multiple. Every piece holds at least one
element, so the pieces are never more than the elements; a size of zero
cuts like a size of one. Uploads cut a corpus into batches this way,
digests cut their input into blocks, and telemetry gathers recalls in
blocks, of which it takes the last one first.
-/
namespace KnnOracle

/-- Consecutive pieces of `size` elements each. -/
def chunks {α : Type} (size : Nat) : List α → List (List α)
  | [] => []
  | x :: rest =>
      (x :: rest.take (size - 1)) :: chunks size (rest.drop (size - 1))
termination_by xs => xs.length
decreasing_by simp only [List.length_drop, List.length_cons]; omega

-- ============================================================ the laws

/-- Nothing is lost, repeated or reordered. -/
theorem flatten_chunks {α : Type} (size : Nat) (xs : List α) :
    (chunks size xs).flatten = xs := by
  fun_induction chunks size xs with
  | case1 => rfl
  | case2 x rest ih =>
      rw [List.flatten_cons, ih, List.cons_append, List.take_append_drop]

/-- No piece is empty. -/
theorem ne_nil_of_mem_chunks {α : Type} {size : Nat} {xs piece : List α}
    (h : piece ∈ chunks size xs) : piece ≠ [] := by
  fun_induction chunks size xs with
  | case1 => cases h
  | case2 x rest ih =>
      rcases List.mem_cons.mp h with rfl | h
      · exact List.cons_ne_nil _ _
      · exact ih h

/-- No piece is larger than asked for. -/
theorem length_le_of_mem_chunks {α : Type} {size : Nat} {xs piece : List α}
    (hsize : 0 < size) (h : piece ∈ chunks size xs) : piece.length ≤ size := by
  fun_induction chunks size xs with
  | case1 => cases h
  | case2 x rest ih =>
      rcases List.mem_cons.mp h with rfl | h
      · rw [List.length_cons, List.length_take]
        omega
      · exact ih h

/-- A piece of the right size at the front is cut off as it is. -/
theorem chunks_append {α : Type} {size : Nat} (hsize : 0 < size)
    {piece : List α} (h : piece.length = size) (rest : List α) :
    chunks size (piece ++ rest) = piece :: chunks size rest := by
  cases piece with
  | nil =>
      rw [List.length_nil] at h
      omega
  | cons x piece =>
      have htail : piece.length = size - 1 := by
        rw [List.length_cons] at h
        omega
      rw [List.cons_append, chunks, List.take_left' htail,
        List.drop_left' htail]

-- =================================== pieces laid from the last to the first

/-- Taking the last piece first loses nothing. -/
theorem flatten_reverse_chunks_perm {α : Type} (size : Nat) (xs : List α) :
    (chunks size xs).reverse.flatten.Perm xs := by
  have whole := (List.reverse_perm (chunks size xs)).flatten
  rwa [flatten_chunks] at whole

/-- What fits into one piece is one piece, so it keeps its order. -/
theorem flatten_reverse_chunks_of_length_le {α : Type} {size : Nat}
    {xs : List α} (h : xs.length ≤ size) :
    (chunks size xs).reverse.flatten = xs := by
  cases xs with
  | nil => simp [chunks]
  | cons first rest =>
      have short : rest.length ≤ size - 1 := by
        rw [List.length_cons] at h
        omega
      rw [chunks, List.take_of_length_le short, List.drop_of_length_le short]
      simp [chunks]

end KnnOracle
