/-
Cutting a list at its separators.

`pieces isSeparator xs` is what stands between the separators of `xs`:
one piece more than there are separators, some of them possibly empty.
Texts are cut into lines this way, and paths into names.
-/
namespace KnnOracle

/-- The pieces, where `acc` holds the open piece so far, last element
first. -/
def piecesFrom {α : Type} (isSeparator : α → Bool) (acc : List α) :
    List α → List (List α)
  | [] => [acc.reverse]
  | x :: rest =>
      if isSeparator x then acc.reverse :: piecesFrom isSeparator [] rest
      else piecesFrom isSeparator (x :: acc) rest

/-- What stands between the separators. -/
def pieces {α : Type} (isSeparator : α → Bool) (xs : List α) : List (List α) :=
  piecesFrom isSeparator [] xs

-- ============================================================ the laws

/-- There is always a piece. -/
theorem pieces_ne_nil {α : Type} (isSeparator : α → Bool) (xs : List α) :
    pieces isSeparator xs ≠ [] := by
  suffices key : ∀ acc, piecesFrom isSeparator acc xs ≠ [] from key []
  induction xs with
  | nil => exact fun acc => List.cons_ne_nil _ _
  | cons x rest ih =>
      intro acc
      rw [piecesFrom]
      split
      · exact List.cons_ne_nil _ _
      · exact ih _

/-- Nothing is lost: with the separator put between them, the pieces are
the list again. -/
theorem intercalate_pieces {α : Type} [BEq α] [LawfulBEq α] (separator : α)
    (xs : List α) :
    [separator].intercalate (pieces (· == separator) xs) = xs := by
  suffices key : ∀ acc, [separator].intercalate
      (piecesFrom (· == separator) acc xs)
      = acc.reverse ++ xs from key []
  induction xs with
  | nil => simp [piecesFrom, List.intercalate]
  | cons x rest ih =>
      intro acc
      rw [piecesFrom]
      split
      · next h =>
          have hne := pieces_ne_nil (· == separator) rest
          have hrest := ih []
          rw [pieces] at hne
          cases hp : piecesFrom (· == separator) [] rest with
          | nil => exact absurd hp hne
          | cons piece more =>
              rw [hp] at hrest
              simp only [List.intercalate, List.intersperse_cons_cons,
                List.flatten_cons] at hrest ⊢
              rw [hrest, eq_of_beq h]
              rfl
      · rw [ih, List.reverse_cons, List.append_assoc]
        rfl

/-- Laid end to end, the pieces are the list without its separators. -/
theorem flatten_pieces {α : Type} (isSeparator : α → Bool) (xs : List α) :
    (pieces isSeparator xs).flatten = xs.filter (!isSeparator ·) := by
  suffices key : ∀ acc, (piecesFrom isSeparator acc xs).flatten
      = acc.reverse ++ xs.filter (!isSeparator ·) from key []
  induction xs with
  | nil => simp [piecesFrom]
  | cons x rest ih =>
      intro acc
      rw [piecesFrom]
      split
      · next h => simp [h, ih]
      · next h => simp [h, ih]

/-- No piece holds a separator. -/
theorem not_separator_of_mem_pieces {α : Type} {isSeparator : α → Bool}
    {xs piece : List α} (h : piece ∈ pieces isSeparator xs) :
    ∀ x ∈ piece, isSeparator x = false := by
  suffices key : ∀ acc, (∀ x ∈ acc, isSeparator x = false) →
      piece ∈ piecesFrom isSeparator acc xs →
        ∀ x ∈ piece, isSeparator x = false from
    key [] (fun _ hx => nomatch hx) h
  clear h
  induction xs with
  | nil =>
      intro acc hacc hmem x hx
      rw [piecesFrom, List.mem_singleton] at hmem
      exact hacc x (List.mem_reverse.mp (hmem ▸ hx))
  | cons y rest ih =>
      intro acc hacc hmem
      rw [piecesFrom] at hmem
      split at hmem
      · rcases List.mem_cons.mp hmem with rfl | hmem
        · exact fun x hx => hacc x (List.mem_reverse.mp hx)
        · exact ih [] (fun _ hx => nomatch hx) hmem
      · next hy =>
          refine ih (y :: acc) (fun x hx => ?_) hmem
          rcases List.mem_cons.mp hx with rfl | hx
          · simpa using hy
          · exact hacc x hx

-- ======================================================= pieces that end

/-- The open piece ends at the first separator. -/
theorem piecesFrom_append {α : Type} {isSeparator : α → Bool} {x : α}
    (hx : isSeparator x = true) {piece : List α}
    (h : ∀ y ∈ piece, isSeparator y = false) (acc rest : List α) :
    piecesFrom isSeparator acc (piece ++ x :: rest) =
      (acc.reverse ++ piece) :: piecesFrom isSeparator [] rest := by
  induction piece generalizing acc with
  | nil => simp [piecesFrom, hx]
  | cons y piece ih =>
      have hy := h y List.mem_cons_self
      have hpiece :=
        ih (fun z hz => h z (List.mem_cons_of_mem y hz)) (y :: acc)
      rw [List.cons_append, piecesFrom, hy]
      simpa using hpiece

/-- Pieces that all end at a separator leave an empty one behind. -/
theorem pieces_flatMap {α : Type} {isSeparator : α → Bool} {x : α}
    (hx : isSeparator x = true) {ended : List (List α)}
    (h : ∀ piece ∈ ended, ∀ y ∈ piece, isSeparator y = false) :
    pieces isSeparator (ended.flatMap (· ++ [x])) = ended ++ [[]] := by
  rw [pieces]
  induction ended with
  | nil => rfl
  | cons piece rest ih =>
      have hrest := ih fun p hp => h p (List.mem_cons_of_mem piece hp)
      rw [List.flatMap_cons, List.append_assoc, List.singleton_append,
        piecesFrom_append hx (h piece List.mem_cons_self), hrest]
      rfl

end KnnOracle
