/-
The largest and the smallest of numbers.

Every number has a standing, and a NaN the lowest of all (`standing`). Both
comparisons compare standings (`le_iff_standing_le`, `lt_iff_standing_lt`), as
long as no NaN is on the left. The larger of two numbers is the one with the
higher standing, and the first if neither has (`larger_eq`). So the largest of
many does not depend on how they are grouped (`reduce?_flatten`), and nothing
stands higher (`standing_foldl_larger_le_iff`). The smallest of numbers is one
of them and at most each of them (`reduce?_smaller`).
-/
import Mathlib
import KnnOracle.Comparison
import KnnOracle.Proofs.Decimal.Arithmetic
import KnnOracle.Proofs.Decimal.Order

namespace KnnOracle

open Decimal Float.Model Float.Model.UnpackedFloat

-- ============================================================== standings

variable {x y : Float}

/-- The place of a number among all numbers; below them is that of the NaN. -/
def standing (x : Float) : WithBot (ℤ ×ₗ ℤ ×ₗ ℤ) :=
  if x.isNaN then ⊥ else (weight x.toModel.unpack : ℤ ×ₗ ℤ ×ₗ ℤ)

/-- A NaN stands below all numbers, so that it never wins against one. That is
how the larger of two is defined for floats. -/
private theorem standing_of_isNaN (h : x.isNaN = true) : standing x = ⊥ :=
  if_pos h

private theorem standing_of_not_isNaN (h : x.isNaN = false) :
    standing x = (weight x.toModel.unpack : ℤ ×ₗ ℤ ×ₗ ℤ) :=
      if_neg (Bool.not_eq_true _ ▸ h)

/-- What is at most something has at most its standing. From here on
comparisons of floats are comparisons in a linear order. -/
theorem le_iff_standing_le :
    x ≤ y ↔ x.isNaN = false ∧ standing x ≤ standing y := by
  rw [float_le_iff, le_iff_weight_le, ← isNaN_eq_false_iff,
    ← isNaN_eq_false_iff]
  cases hx : x.isNaN with
  | true => simp
  | false =>
      cases hy : y.isNaN with
      | true => simp [standing_of_not_isNaN hx, standing_of_isNaN hy]
      | false => simp [standing_of_not_isNaN hx, standing_of_not_isNaN hy]

/-- What is below something is a number and has a lower standing. A NaN stands
lowest and is below nothing, so the first half cannot be left out. -/
theorem lt_iff_standing_lt :
    x < y ↔ x.isNaN = false ∧ standing x < standing y := by
  rw [float_lt_iff, lt_iff_weight_lt, ← isNaN_eq_false_iff,
    ← isNaN_eq_false_iff]
  cases hx : x.isNaN with
  | true => simp
  | false =>
      cases hy : y.isNaN with
      | true => simp [standing_of_not_isNaN hx, standing_of_isNaN hy]
      | false => simp [standing_of_not_isNaN hx, standing_of_not_isNaN hy]

/-- Of two numbers one is at most the other. This is what a NaN spoils, and why
it is kept out. -/
theorem not_lt_iff_le (hx : x.isNaN = false) (hy : y.isNaN = false) :
    ¬ y < x ↔ x ≤ y := by
  rw [lt_iff_standing_lt, le_iff_standing_le, hx, hy, not_and, not_lt]
  exact ⟨fun h => ⟨rfl, h rfl⟩, fun h _ => h.2⟩

-- ============================================================ the largest

/-- The higher standing wins, and otherwise the first number, so that a NaN
that came first is replaced. -/
theorem larger_eq (x y : Float) :
    larger x y = if standing x < standing y then y else x := by
  unfold larger
  cases hx : x.isNaN with
  | true =>
      rw [if_pos rfl, standing_of_isNaN hx]
      cases hy : y.isNaN with
      | true =>
          rw [standing_of_isNaN hy, if_neg (lt_irrefl _), eq_of_isNaN hx hy]
      | false => rw [standing_of_not_isNaN hy, if_pos (WithBot.bot_lt_coe _)]
  | false =>
      cases hy : y.isNaN with
      | true =>
          rw [if_neg Bool.false_ne_true, if_pos rfl, standing_of_isNaN hy,
            if_neg not_lt_bot]
      | false =>
          simp only [lt_iff_standing_lt, hx, Bool.false_eq_true, if_false,
            true_and]

/-- In these standings the larger of two is their maximum, with the laws that a
maximum has. -/
private theorem standing_larger (x y : Float) :
    standing (larger x y) = max (standing x) (standing y) := by
  rw [larger_eq, apply_ite standing, max_def_lt]

/-- It does not matter which two of three numbers are compared first. -/
instance : Std.Associative larger where
  assoc x y z := by
    simp only [larger_eq]
    by_cases hxy : standing x < standing y
    · by_cases hyz : standing y < standing z
      · simp [hxy, hyz, hxy.trans hyz]
      · simp [hxy, hyz]
    · by_cases hyz : standing y < standing z
      · simp [hxy, hyz]
      · simp [hxy, hyz, not_lt.mpr ((not_lt.mp hyz).trans (not_lt.mp hxy))]

/-- The largest of numbers stands no higher than a bound if none of them
does. -/
theorem standing_foldl_larger_le_iff {worst : Float} {list : List Float}
    {bound : WithBot (ℤ ×ₗ ℤ ×ₗ ℤ)} :
    standing (list.foldl larger worst) ≤ bound ↔
      standing worst ≤ bound ∧ ∀ x ∈ list, standing x ≤ bound := by
  induction list generalizing worst with
  | nil => simp
  | cons x rest ih =>
      rw [List.foldl_cons, ih, standing_larger, max_le_iff,
        List.forall_mem_cons, and_assoc]

-- =============================================================== grouping

section grouping

variable {α : Type} {f : α → α → α}

/-- There is no extreme of nothing, and this is the only case. A report without
matches has no largest difference. -/
theorem reduce?_eq_none_iff {list : List α} :
    reduce? f list = none ↔ list = [] := by
  cases list with
  | nil => simp [reduce?]
  | cons x rest => simp [reduce?]

private theorem reduce?_toList (x? : Option α) : reduce? f x?.toList = x? := by
  cases x? with
  | none => rfl
  | some x => rfl

/-- What two lists are combined to is combined. The operation has to be
associative for this, which the larger of two floats is not obviously. -/
theorem reduce?_append [Std.Associative f] (list others : List α) :
    reduce? f (list ++ others)
      = reduce? f ((reduce? f list).toList ++ (reduce? f others).toList) := by
  cases list with
  | nil =>
      cases others with
      | nil => rfl
      | cons y others => rfl
  | cons x rest =>
      cases others with
      | nil => simp [reduce?]
      | cons y others =>
          show some ((rest ++ y :: others).foldl f x)
            = some (f (rest.foldl f x) (others.foldl f y))
          rw [List.foldl_append, List.foldl_cons, List.foldl_assoc]

/-- Lists combined one by one give what all of them in one give. So the largest
difference of a run is the largest of those that its reports give. -/
theorem reduce?_flatten [Std.Associative f] (lists : List (List α)) :
    reduce? f lists.flatten = reduce? f (lists.filterMap (reduce? f)) := by
  induction lists with
  | nil => rfl
  | cons list rest ih =>
      have hparts : (list :: rest).filterMap (reduce? f)
          = (reduce? f list).toList ++ rest.filterMap (reduce? f) := by
        rw [List.filterMap_cons]
        cases reduce? f list with
        | none => rfl
        | some x => rfl
      rw [List.flatten_cons, reduce?_append, ih, hparts,
        reduce?_append (reduce? f list).toList
        (rest.filterMap (reduce? f)), reduce?_toList]

end grouping

-- =========================================================== the smallest

/-- The lower number wins, and otherwise the first. -/
theorem smaller_eq (hx : x.isNaN = false) (hy : y.isNaN = false) :
    smaller x y = if y < x then y else x := by
  simp only [smaller, hx, hy, Bool.false_eq_true, if_false]

/-- The smallest of numbers is one of them, and at most each of them. Both
halves are needed: a lower bound alone would not be a minimum. -/
theorem foldl_smaller {least : Float} {list : List Float}
    (hleast : least.isNaN = false) (hlist : ∀ x ∈ list, x.isNaN = false) :
    list.foldl smaller least ∈ least :: list ∧
      ∀ x ∈ least :: list, list.foldl smaller least ≤ x := by
  induction list generalizing least with
  | nil =>
      refine ⟨List.mem_singleton.mpr rfl, fun x hx => ?_⟩
      cases List.mem_singleton.mp hx
      exact le_iff_standing_le.mpr ⟨hleast, le_rfl⟩
  | cons y rest ih =>
      obtain ⟨hy, hrest⟩ := List.forall_mem_cons.mp hlist
      rw [List.foldl_cons, smaller_eq hleast hy]
      by_cases hlt : y < least
      · rw [if_pos hlt]
        obtain ⟨hmem, hall⟩ := ih hy hrest
        refine ⟨List.mem_cons_of_mem _ hmem,
          List.forall_mem_cons.mpr ⟨?_, hall⟩⟩
        have hstanding := (lt_iff_standing_lt.mp hlt).2
        exact float_le_trans (hall y List.mem_cons_self)
          (le_iff_standing_le.mpr ⟨hy, hstanding.le⟩)
      · rw [if_neg hlt]
        obtain ⟨hmem, hall⟩ := ih hleast hrest
        have hfirst := hall least List.mem_cons_self
        have hsecond :=
          float_le_trans hfirst ((not_lt_iff_le hleast hy).mp hlt)
        refine ⟨?_, List.forall_mem_cons.mpr ⟨hfirst, List.forall_mem_cons.mpr
          ⟨hsecond, fun x hx => hall x (.tail _ hx)⟩⟩⟩
        rcases List.mem_cons.mp hmem with heq | hlater
        · exact List.mem_cons.mpr (.inl heq)
        · exact List.mem_cons_of_mem _ (List.mem_cons_of_mem _ hlater)

/-- Among numbers the least is one of them and no larger than any. The order in
which they were met does not show in it. -/
theorem reduce?_smaller {list : List Float} {least : Float}
    (hlist : ∀ x ∈ list, x.isNaN = false)
    (h : reduce? smaller list = some least) :
    least ∈ list ∧ ∀ x ∈ list, least ≤ x := by
  cases list with
  | nil => cases h
  | cons first rest =>
      obtain ⟨hfirst, hrest⟩ := List.forall_mem_cons.mp hlist
      cases h
      exact foldl_smaller hfirst hrest

end KnnOracle
