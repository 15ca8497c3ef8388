/-
Committed records as a map.

A collection keeps its records in a list in which no id repeats, so the
list is a map from ids to records, and `recordOf?` reads it. Placing
records one by one changes the list in ways that depend on their order,
but the map only by what is placed: `recordOf?_placeAll` says that the
new map is the old one overwritten by the records, if their ids differ,
and with `recordOf?_of_perm` that their order does not matter.
-/
import Mathlib.Data.List.Nodup
import KnnOracle.Service.Step

namespace KnnOracle.Service

/-- The record with an id. -/
def recordOf? (id : RecordId) (list : List Record) : Option Record :=
  list.find? fun r => r.id = id

-- ====================================================== placing one record

private theorem recordOf?_cons (id : RecordId) (r : Record)
    (rest : List Record) :
    recordOf? id (r :: rest) = if r.id = id then some r
      else recordOf? id rest := by
  unfold recordOf?
  rw [List.find?_cons]
  by_cases h : r.id = id
  · simp [h]
  · simp [h]

/-- A record with a new id goes to the end. -/
theorem place_of_notMem {r : Record} {list : List Record}
    (h : r.id ∉ list.map Record.id) :
    place r list = list ++ [r] := by
  induction list with
  | nil => rfl
  | cons old rest ih =>
      rw [List.map_cons, List.mem_cons, not_or] at h
      rw [place, if_neg (Ne.symm h.1), ih h.2, List.cons_append]

/-- A record that was placed is found, and nothing else changes. Seen as a map
from ids to records, placing is an update. -/
theorem recordOf?_place (id : RecordId) (r : Record) (list : List Record) :
    recordOf? id (place r list) = if r.id = id then some r
      else recordOf? id list := by
  induction list with
  | nil =>
      show recordOf? id [r] = _
      rw [recordOf?_cons]
  | cons old rest ih =>
      unfold place
      by_cases hold : old.id = r.id
      · rw [if_pos hold, recordOf?_cons, recordOf?_cons, hold]
        by_cases hid : r.id = id
        · rw [if_pos hid, if_pos hid]
        · rw [if_neg hid, if_neg hid, if_neg hid]
      · rw [if_neg hold, recordOf?_cons, recordOf?_cons, ih]
        by_cases hid : r.id = id
        · rw [if_neg (fun h => hold (h.trans hid.symm)), if_pos hid,
            if_pos hid]
        · rw [if_neg hid, if_neg hid]

private theorem map_id_place (r : Record) (list : List Record) :
    (place r list).map Record.id =
      if r.id ∈ list.map Record.id then list.map Record.id
      else list.map Record.id ++ [r.id] := by
  induction list with
  | nil => rfl
  | cons old rest ih =>
      unfold place
      by_cases hold : old.id = r.id
      · rw [if_pos hold, List.map_cons, List.map_cons, hold,
          if_pos (List.mem_cons_self ..)]
      · rw [if_neg hold, List.map_cons, List.map_cons, ih]
        by_cases hmem : r.id ∈ rest.map Record.id
        · rw [if_pos hmem, if_pos (List.mem_cons_of_mem _ hmem)]
        · have hnot : r.id ∉ old.id :: rest.map Record.id := by
            intro h
            rcases List.mem_cons.mp h with h | h
            · exact hold h.symm
            · exact hmem h
          rw [if_neg hmem, if_neg hnot, List.cons_append]

/-- Placing a record keeps ids distinct. -/
theorem nodup_place {r : Record} {list : List Record}
    (h : (list.map Record.id).Nodup) :
    ((place r list).map Record.id).Nodup := by
  rw [map_id_place]
  split
  · exact h
  · next hmem =>
      rw [List.nodup_append]
      refine ⟨h, List.nodup_singleton _, ?_⟩
      intro a ha b hb heq
      rw [List.mem_singleton.mp hb] at heq
      exact hmem (heq ▸ ha)

private theorem mem_place {r x : Record} {list : List Record}
    (h : x ∈ place r list) :
    x = r ∨ x ∈ list := by
  induction list with
  | nil => exact .inl (List.mem_singleton.mp h)
  | cons old rest ih =>
      unfold place at h
      split at h
      · rcases List.mem_cons.mp h with rfl | hx
        · exact .inl rfl
        · exact .inr (List.mem_cons_of_mem _ hx)
      · rcases List.mem_cons.mp h with rfl | hx
        · exact .inr (List.mem_cons_self ..)
        · exact (ih hx).imp id (List.mem_cons_of_mem _)

private theorem mem_place_self (r : Record) (list : List Record) :
    r ∈ place r list := by
  induction list with
  | nil => exact List.mem_singleton_self r
  | cons old rest ih =>
      unfold place
      split
      · exact List.mem_cons_self ..
      · exact List.mem_cons_of_mem _ ih

-- ======================================================== placing several

/-- Placing records keeps ids distinct, even if an id is among them twice. -/
theorem nodup_placeAll {records list : List Record}
    (h : (list.map Record.id).Nodup) :
    ((placeAll records list).map Record.id).Nodup := by
  induction records generalizing list with
  | nil => exact h
  | cons r rest ih =>
      show ((placeAll rest (place r list)).map Record.id).Nodup
      exact ih (nodup_place h)

theorem mem_placeAll {records list : List Record} {x : Record}
    (h : x ∈ placeAll records list) :
    x ∈ records ∨ x ∈ list := by
  induction records generalizing list with
  | nil => exact .inr h
  | cons r rest ih =>
      have h : x ∈ placeAll rest (place r list) := h
      rcases ih h with hx | hx
      · exact .inl (List.mem_cons_of_mem _ hx)
      · rcases mem_place hx with rfl | hx
        · exact .inl (List.mem_cons_self ..)
        · exact .inr hx

theorem mem_placeAll_concat (records list : List Record) (r : Record) :
    r ∈ placeAll (records ++ [r]) list := by
  unfold placeAll
  rw [List.foldl_append]
  exact mem_place_self r _

/-- Where no id is there twice, placing records appends them in their order. -/
theorem placeAll_of_nodup {records list : List Record}
    (h : ((list ++ records).map Record.id).Nodup) :
    placeAll records list = list ++ records := by
  induction records generalizing list with
  | nil => exact (List.append_nil list).symm
  | cons r rest ih =>
      have hsplit : list ++ r :: rest = list ++ [r] ++ rest := by simp
      rw [hsplit] at h ⊢
      have hnew : r.id ∉ list.map Record.id := by
        intro hmem
        rw [List.append_assoc, List.map_append, List.nodup_append] at h
        exact h.2.2 r.id hmem r.id (by simp) rfl
      show placeAll rest (place r list) = _
      rw [place_of_notMem hnew, ih h]

/-- Records with different ids overwrite the map: each id has its new record if
there is one, and else its old one. -/
theorem recordOf?_placeAll {records : List Record} (id : RecordId)
    (list : List Record) (hnodup : (records.map Record.id).Nodup) :
    recordOf? id (placeAll records list)
      = (recordOf? id records).or (recordOf? id list) := by
  induction records generalizing list with
  | nil => rfl
  | cons r rest ih =>
      rw [List.map_cons, List.nodup_cons] at hnodup
      show recordOf? id (placeAll rest (place r list)) = _
      rw [ih _ hnodup.2, recordOf?_place, recordOf?_cons]
      by_cases hid : r.id = id
      · -- no later record has this id
        have hnone : recordOf? id rest = none := by
          apply List.find?_eq_none.mpr
          intro x hx h
          have hx' : x.id = id := by simpa using h
          exact hnodup.1 (List.mem_map.mpr ⟨x, hx, hx'.trans hid.symm⟩)
        rw [if_pos hid, if_pos hid, hnone, Option.none_or, Option.some_or]
      · rw [if_neg hid, if_neg hid]

/-- Where ids differ, the record with an id is the one that is there. -/
theorem recordOf?_eq_some {records : List Record}
    (hnodup : (records.map Record.id).Nodup) {id : RecordId} {r : Record} :
    recordOf? id records = some r ↔ r ∈ records ∧ r.id = id := by
  constructor
  · intro h
    exact ⟨List.mem_of_find?_eq_some h, by simpa using List.find?_some h⟩
  · rintro ⟨hr, rfl⟩
    cases hfind : recordOf? r.id records with
    | none =>
        have hnone := List.find?_eq_none.mp hfind r hr
        exact absurd (decide_eq_true rfl) hnone
    | some x =>
        have hx : x.id = r.id := by simpa using List.find?_some hfind
        rw [List.inj_on_of_nodup_map hnodup
          (List.mem_of_find?_eq_some hfind) hr hx]

/-- The order in which records arrived does not matter to the record of an id,
as long as no id is there twice. -/
theorem recordOf?_of_perm {records arrived : List Record}
    (hnodup : (records.map Record.id).Nodup) (hperm : arrived.Perm records)
    (id : RecordId) :
    recordOf? id arrived = recordOf? id records := by
  have hnodup' : (arrived.map Record.id).Nodup :=
    (hperm.map Record.id).nodup_iff.mpr hnodup
  apply Option.ext
  intro r
  rw [recordOf?_eq_some hnodup', recordOf?_eq_some hnodup, hperm.mem_iff]

end KnnOracle.Service
