/-
Going over a list with a function that can fail.

With an `Option` the whole comes out exactly if every part does. With an
`Except` the first part that fails decides, and no part behind it has any
say: a success is one of every part (`mapM_eq_ok_iff`), and a failure is
the failure of a part in front of which every part succeeded
(`mapM_eq_error_iff`).
-/
import Mathlib.Data.List.Basic
import Mathlib.Data.List.Forall2

namespace KnnOracle

-- ============================================================== options

/-- A list of values is there when each of them is, and then these are they. -/
theorem mapM_eq_some_iff {β γ : Type} {f : β → Option γ} {list : List β}
    {values : List γ} :
    list.mapM f = some values ↔ list.map f = values.map some := by
  induction list generalizing values with
  | nil => cases values <;> simp
  | cons b rest ih =>
      cases values with
      | nil => simp [List.mapM_cons, Option.bind_eq_some_iff]
      | cons value others =>
          rw [List.mapM_cons, List.map_cons, List.map_cons,
            List.cons.injEq, ← ih]
          simp [Option.bind_eq_some_iff]

/-- A traversal succeeds if each of its steps does. -/
theorem exists_mapM_eq_some {β γ : Type} {f : β → Option γ} {list : List β}
    (h : ∀ b ∈ list, (f b).isSome) : ∃ values, list.mapM f = some values := by
  induction list with
  | nil => exact ⟨[], rfl⟩
  | cons b rest ih =>
      obtain ⟨value, hvalue⟩ :=
        Option.isSome_iff_exists.mp (h b (List.mem_cons_self ..))
      obtain ⟨others, hothers⟩ :=
        ih fun b hb => h b (List.mem_cons_of_mem _ hb)
      exact ⟨value :: others, by rw [List.mapM_cons, hvalue, hothers]; rfl⟩

-- ============================================================== results

section results

variable {ε β γ : Type} {f : β → Except ε γ}

theorem mapM_cons_ok {b : β} {value : γ} (h : f b = .ok value)
    (rest : List β) :
    (b :: rest).mapM f = (rest.mapM f).map (value :: ·) := by
  rw [List.mapM_cons, h]
  cases rest.mapM f <;> rfl

theorem mapM_cons_error {b : β} {e : ε} (h : f b = .error e) (rest : List β) :
    (b :: rest).mapM f = .error e := by
  rw [List.mapM_cons, h]
  rfl

/-- The whole succeeds when every part does. -/
theorem mapM_eq_ok_iff {list : List β} {values : List γ} :
    list.mapM f = .ok values ↔
      List.Forall₂ (fun b value => f b = .ok value) list values := by
  induction list generalizing values with
  | nil =>
      rw [List.mapM_nil, List.forall₂_nil_left_iff]
      exact ⟨fun h => by cases h; rfl, fun h => by rw [h]; rfl⟩
  | cons b rest ih =>
      cases hb : f b with
      | error e =>
          rw [mapM_cons_error hb]
          refine iff_of_false nofun fun h => ?_
          cases h with
          | cons hhead _ =>
              rw [hb] at hhead
              cases hhead
      | ok value =>
          rw [mapM_cons_ok hb]
          cases hrest : rest.mapM f with
          | error e =>
              refine iff_of_false nofun fun h => ?_
              cases h with
              | cons _ htail =>
                  rw [ih.mpr htail] at hrest
                  cases hrest
          | ok others =>
              constructor
              · intro h
                cases h
                exact .cons hb (ih.mp hrest)
              · intro h
                cases h with
                | cons hhead htail =>
                    rw [hb] at hhead
                    cases hhead
                    rw [ih.mpr htail] at hrest
                    cases hrest
                    rfl

/-- The first part that fails decides, and the parts before it have
succeeded. -/
theorem mapM_eq_error_iff {list : List β} {e : ε} :
    list.mapM f = .error e ↔ ∃ before b after, list = before ++ b :: after ∧
      (∀ x ∈ before, ∃ value, f x = .ok value) ∧ f b = .error e := by
  induction list with
  | nil =>
      refine iff_of_false nofun ?_
      rintro ⟨before, b, after, h, -⟩
      exact List.append_ne_nil_of_right_ne_nil before
        (List.cons_ne_nil b after) h.symm
  | cons b rest ih =>
      cases hb : f b with
      | error e' =>
          rw [mapM_cons_error hb, Except.error.injEq]
          constructor
          · rintro rfl
            exact ⟨[], b, rest, rfl, nofun, hb⟩
          · rintro ⟨before, x, after, hlist, hbefore, hx⟩
            cases before with
            | nil =>
                cases hlist
                rw [hb] at hx
                cases hx
                rfl
            | cons y before =>
                cases hlist
                obtain ⟨value, hvalue⟩ := hbefore b List.mem_cons_self
                rw [hb] at hvalue
                cases hvalue
      | ok value =>
          rw [mapM_cons_ok hb]
          have hmap : (rest.mapM f).map (value :: ·) = .error e ↔
              rest.mapM f = .error e := by
            cases rest.mapM f with
            | error e' => rfl
            | ok others => exact iff_of_false nofun nofun
          rw [hmap, ih]
          constructor
          · rintro ⟨before, x, after, rfl, hbefore, hx⟩
            exact ⟨b :: before, x, after, rfl,
              List.forall_mem_cons.mpr ⟨⟨value, hb⟩, hbefore⟩, hx⟩
          · rintro ⟨before, x, after, hlist, hbefore, hx⟩
            cases before with
            | nil =>
                cases hlist
                rw [hb] at hx
                cases hx
            | cons y before =>
                cases hlist
                exact ⟨before, x, after, rfl,
                  (List.forall_mem_cons.mp hbefore).2, hx⟩

end results

end KnnOracle
