/-
First and later occurrences of ids in an answer.

An answer may name an id many times. Three readings of a list of
neighbors matter for its judgement, and each is defined here without the
pass that a comparison makes over the list:

* `distinctIds`, the ids in the order in which they occur first;
* `firstScore?`, the score that stands at the first occurrence of an id;
* `repeatedIds`, the ids in the order in which they occur a second time.

# The pass

`Comparator.separate` goes over a list from the left with a set of the ids
seen so far. `separate_concat` says what one more entry at the end
changes: it joins the first occurrences or the repetitions. All that is
said of the pass follows from that by induction from the right, where
what was seen is simply what stands before.
-/
import Mathlib.Data.List.Induction
import Mathlib.Data.List.Nodup
import KnnOracle.Comparison

namespace KnnOracle

-- ======================================================== the readings

/-- The ids of a list in the order of their first occurrences. -/
def distinctIds (list : List Neighbor) : List RecordId :=
  (list.map Neighbor.id).eraseDups

/-- The score at the first occurrence of an id. -/
def firstScore? (list : List Neighbor) (id : RecordId) : Option Score :=
  (list.find? fun n => n.id = id).map Neighbor.score

/-- The ids of a list in the order of their second occurrences: those that
occur just once in front of the place where they stand. -/
def repeatedIds (list : List Neighbor) : List RecordId :=
  let ids := list.map Neighbor.id
  (ids.zipIdx.filter fun entry => (ids.take entry.2).count entry.1 = 1).map
    Prod.fst

-- ------------------------------------------------------- one more entry

/-- The three of them are looked at from the end of a list: an id is new there
if it was not in the list before. -/
private theorem distinctIds_concat (list : List Neighbor) (n : Neighbor) :
    distinctIds (list ++ [n])
      = if n.id ∈ list.map Neighbor.id then distinctIds list
        else distinctIds list ++ [n.id] := by
  unfold distinctIds
  rw [List.map_append, List.map_singleton, List.eraseDups_append]
  generalize list.map Neighbor.id = ids
  by_cases h : n.id ∈ ids
  · rw [if_pos h]
    simp [List.removeAll, h]
  · rw [if_neg h]
    simp [List.removeAll, h, List.eraseDups_cons]

/-- The score of an id is the first one, so a neighbor at the end only counts
if its id is new. -/
private theorem firstScore?_concat (list : List Neighbor) (n : Neighbor)
    (id : RecordId) :
    firstScore? (list ++ [n]) id
      = (firstScore? list id).or
        (if n.id = id then some n.score else none) := by
  unfold firstScore?
  rw [List.find?_append, Option.map_or]
  by_cases h : n.id = id
  · simp [h]
  · simp [h]

/-- An id is found to be repeated when it comes for the second time, and not
again after that. The program finds it by the same step. -/
private theorem repeatedIds_concat (list : List Neighbor) (n : Neighbor) :
    repeatedIds (list ++ [n])
      = repeatedIds list ++ if (list.map Neighbor.id).count n.id = 1 then
        [n.id] else [] := by
  have hbefore : (((list.map Neighbor.id).zipIdx).filter fun entry =>
        ((list.map Neighbor.id ++ [n.id]).take entry.2).count entry.1 = 1)
      = ((list.map Neighbor.id).zipIdx).filter fun entry =>
        ((list.map Neighbor.id).take entry.2).count entry.1 = 1 := by
    apply List.filter_congr
    intro entry hentry
    have hlt : entry.2 < (list.map Neighbor.id).length :=
      List.snd_lt_of_mem_zipIdx hentry
    rw [List.take_append_of_le_length (Nat.le_of_lt hlt)]
  unfold repeatedIds
  simp only [List.map_append, List.map_cons, List.map_nil, List.zipIdx_append,
    List.filter_append, hbefore]
  congr 1
  by_cases h : (list.map Neighbor.id).count n.id = 1
  · simp [h]
  · simp [h]

-- ------------------------------------------------------------ what they say

/-- No id is lost with its repetitions. -/
theorem mem_distinctIds {list : List Neighbor} {id : RecordId} :
    id ∈ distinctIds list ↔ id ∈ list.map Neighbor.id :=
  List.mem_eraseDups

/-- No id is left twice, so that what is counted by id is counted once. -/
theorem nodup_distinctIds (list : List Neighbor) :
    (distinctIds list).Nodup := by
  induction list using List.reverseRecOn with
  | nil => exact List.nodup_nil
  | append_singleton list n ih =>
      rw [distinctIds_concat]
      by_cases h : n.id ∈ list.map Neighbor.id
      · rw [if_pos h]
        exact ih
      · rw [if_neg h]
        rw [← mem_distinctIds] at h
        rw [← List.concat_eq_append]
        exact ih.concat h

/-- Where no id repeats, each occurs first where it stands. The answers of a
faithful service are of this kind. -/
theorem distinctIds_of_nodup {list : List Neighbor}
    (h : (list.map Neighbor.id).Nodup) :
    distinctIds list = list.map Neighbor.id := by
  induction list using List.reverseRecOn with
  | nil => rfl
  | append_singleton list n ih =>
      rw [List.map_append, List.map_singleton] at h ⊢
      obtain ⟨hlist, -, hdisjoint⟩ := List.nodup_append.mp h
      have hnew : n.id ∉ list.map Neighbor.id := fun hmem =>
        hdisjoint n.id hmem n.id (List.mem_singleton_self _) rfl
      rw [distinctIds_concat, if_neg hnew, ih hlist]

/-- An id has a score if it is there, and so looking up a score decides about
membership. -/
theorem isSome_firstScore? {list : List Neighbor} {id : RecordId} :
    (firstScore? list id).isSome ↔ id ∈ list.map Neighbor.id := by
  unfold firstScore?
  rw [Option.isSome_map, List.find?_isSome, List.mem_map]
  simp only [decide_eq_true_eq]

-- ============================================================== the pass

namespace Comparator

/-- The program goes through a list once, with the ids seen so far. A neighbor
that was seen is put aside. -/
private theorem separate_cons_of_seen {seen : Std.HashSet RecordId}
    {x : Neighbor} (h : seen.contains x.id = true) (rest : List Neighbor) :
    separate seen (x :: rest)
      = ((separate seen rest).1, x :: (separate seen rest).2) := by
  rw [separate, if_pos h]

/-- Any other neighbor is kept, and its id counts as seen from there on. -/
private theorem separate_cons_of_new {seen : Std.HashSet RecordId}
    {x : Neighbor} (h : ¬ seen.contains x.id = true) (rest : List Neighbor) :
    separate seen (x :: rest)
      = (x :: (separate (seen.insert x.id) rest).1,
        (separate (seen.insert x.id) rest).2) := by
  rw [separate, if_neg h]

/-- One more entry at the end joins the repetitions if its id was seen
before or stands in the list, and the first occurrences if not. -/
theorem separate_concat (seen : Std.HashSet RecordId) (list : List Neighbor)
    (n : Neighbor) :
    separate seen (list ++ [n])
      = if seen.contains n.id = true ∨ n.id ∈ list.map Neighbor.id then
          ((separate seen list).1, (separate seen list).2 ++ [n])
        else ((separate seen list).1 ++ [n], (separate seen list).2) := by
  induction list generalizing seen with
  | nil =>
      simp only [List.nil_append, separate, List.map_nil, List.not_mem_nil,
        or_false]
  | cons x rest ih =>
      rw [List.cons_append]
      by_cases hx : seen.contains x.id = true
      · rw [separate_cons_of_seen hx, separate_cons_of_seen hx, ih seen]
        have hor : seen.contains n.id = true ∨ n.id ∈ rest.map Neighbor.id
            ↔ seen.contains n.id = true ∨
              n.id ∈ (x :: rest).map Neighbor.id := by
          rw [List.map_cons, List.mem_cons]
          constructor
          · exact Or.imp_right Or.inr
          · rintro (h | h | h)
            · exact Or.inl h
            · exact Or.inl (h ▸ hx)
            · exact Or.inr h
        by_cases hn : seen.contains n.id = true ∨ n.id ∈ rest.map Neighbor.id
        · rw [if_pos hn, if_pos (hor.mp hn)]
          rfl
        · rw [if_neg hn, if_neg fun h => hn (hor.mpr h)]
      · rw [separate_cons_of_new hx, separate_cons_of_new hx,
          ih (seen.insert x.id)]
        -- what is seen later is what was seen, and this entry's id
        have hor : (seen.insert x.id).contains n.id = true ∨
            n.id ∈ rest.map Neighbor.id
            ↔ seen.contains n.id = true ∨
              n.id ∈ (x :: rest).map Neighbor.id := by
          rw [Std.HashSet.contains_insert, Bool.or_eq_true, beq_iff_eq,
            List.map_cons, List.mem_cons]
          constructor
          · rintro ((h | h) | h)
            · exact Or.inr (Or.inl h.symm)
            · exact Or.inl h
            · exact Or.inr (Or.inr h)
          · rintro (h | h | h)
            · exact Or.inl (Or.inr h)
            · exact Or.inl (Or.inl h.symm)
            · exact Or.inr h
        by_cases hn : (seen.insert x.id).contains n.id = true ∨
          n.id ∈ rest.map Neighbor.id
        · rw [if_pos hn, if_pos (hor.mp hn)]
        · rw [if_neg hn, if_neg fun h => hn (hor.mpr h)]
          rfl

/-- From the beginning of a list only the list decides. One more neighbor is
put at the end of the first occurrences or of the further ones, which is the
form for an induction from the right. -/
theorem separate_empty_concat (list : List Neighbor) (n : Neighbor) :
    separate {} (list ++ [n])
      = if n.id ∈ list.map Neighbor.id then
        ((separate {} list).1, (separate {} list).2 ++ [n])
        else ((separate {} list).1 ++ [n], (separate {} list).2) := by
  rw [separate_concat, Std.HashSet.contains_empty]
  simp only [Bool.false_eq_true, false_or]

/-- What is kept has the ids in the order of their first places, which is the
order in which a report lists them. -/
theorem map_id_separate (list : List Neighbor) :
    (separate {} list).1.map Neighbor.id = distinctIds list := by
  induction list using List.reverseRecOn with
  | nil => rfl
  | append_singleton list n ih =>
      rw [separate_empty_concat, distinctIds_concat]
      by_cases h : n.id ∈ list.map Neighbor.id
      · rw [if_pos h, if_pos h]
        exact ih
      · rw [if_neg h, if_neg h, List.map_append, ih]
        rfl

/-- What is kept of an id is its first score. A further occurrence with another
score does not count. -/
theorem firstScore?_of_mem_separate {list : List Neighbor} {n : Neighbor}
    (h : n ∈ (separate {} list).1) : firstScore? list n.id = some n.score := by
  induction list using List.reverseRecOn with
  | nil => cases h
  | append_singleton list m ih =>
      rw [separate_empty_concat] at h
      rw [firstScore?_concat]
      by_cases hm : m.id ∈ list.map Neighbor.id
      · rw [if_pos hm] at h
        rw [ih h]
        rfl
      · rw [if_neg hm] at h
        rcases List.mem_append.mp h with h | h
        · rw [ih h]
          rfl
        · rw [List.mem_singleton] at h
          subst h
          rw [← isSome_firstScore?, Option.not_isSome_iff_eq_none] at hm
          rw [hm, if_pos rfl]
          rfl

/-- A table of the first occurrences holds the first score of each id. This
ties the hash map of the program to the specification, which looks through the
list. -/
theorem getElem?_scoresOf_separate (list : List Neighbor) (id : RecordId) :
    (scoresOf (separate {} list).1)[id]? = firstScore? list id := by
  induction list using List.reverseRecOn with
  | nil => exact Std.HashMap.getElem?_empty
  | append_singleton list n ih =>
      rw [separate_empty_concat, firstScore?_concat]
      by_cases hn : n.id ∈ list.map Neighbor.id
      · rw [if_pos hn]
        show (scoresOf (separate {} list).1)[id]? = _
        rw [ih]
        by_cases hid : n.id = id
        · rw [hid, ← isSome_firstScore?, Option.isSome_iff_exists] at hn
          obtain ⟨s, hs⟩ := hn
          rw [hs]
          rfl
        · rw [if_neg hid, Option.or_none]
      · rw [if_neg hn]
        show (scoresOf ((separate {} list).1 ++ [n]))[id]? = _
        unfold scoresOf
        rw [List.foldl_append, List.foldl_cons, List.foldl_nil,
          Std.HashMap.getElem?_insert]
        unfold scoresOf at ih
        rw [ih]
        by_cases hid : n.id = id
        · rw [hid, ← isSome_firstScore?, Option.not_isSome_iff_eq_none] at hn
          rw [if_pos hid, hn, hid, beq_self_eq_true, if_pos rfl]
          rfl
        · rw [if_neg hid, Option.or_none, if_neg]
          rwa [beq_iff_eq]

/-- The table of scores that the program looks ids up in knows the ids of the
whole list. -/
theorem contains_scoresOf_separate (list : List Neighbor) (id : RecordId) :
    (scoresOf (separate {} list).1).contains id
      = decide (id ∈ list.map Neighbor.id) := by
  rw [Std.HashMap.contains_eq_isSome_getElem?, getElem?_scoresOf_separate,
    Bool.eq_iff_iff, isSome_firstScore?, decide_eq_true_eq]

/-- The repetitions are the ids that occur at least twice. -/
theorem mem_map_id_repeats {list : List Neighbor} {id : RecordId} :
    id ∈ (separate {} list).2.map Neighbor.id ↔
      2 ≤ (list.map Neighbor.id).count id := by
  induction list using List.reverseRecOn with
  | nil => simp [separate]
  | append_singleton list n ih =>
      rw [separate_empty_concat, List.map_append, List.map_singleton,
        List.count_append, List.count_singleton]
      by_cases hn : n.id ∈ list.map Neighbor.id
      · rw [if_pos hn, List.map_append, List.mem_append, ih,
          List.map_singleton, List.mem_singleton]
        have hpos := List.count_pos_iff.mpr hn
        by_cases hid : id = n.id
        · subst hid
          simp only [beq_self_eq_true, if_true, or_true, true_iff]
          omega
        · simp only [hid, beq_iff_eq, Ne.symm hid, if_false, or_false,
            Nat.add_zero]
      · rw [if_neg hn, ih]
        by_cases hid : id = n.id
        · subst hid
          rw [List.count_eq_zero.mpr hn, beq_self_eq_true, if_pos rfl]
          omega
        · simp only [beq_iff_eq, Ne.symm hid, if_false, Nat.add_zero]

/-- The repetitions, each id once, stand in the order of second occurrences.
This is the list of duplicates in a report. -/
theorem eraseDups_repeats (list : List Neighbor) :
    ((separate {} list).2.map Neighbor.id).eraseDups = repeatedIds list := by
  induction list using List.reverseRecOn with
  | nil => rfl
  | append_singleton list n ih =>
      have hmem : n.id ∈ (separate {} list).2.map Neighbor.id ↔
          2 ≤ (list.map Neighbor.id).count n.id := mem_map_id_repeats
      rw [separate_empty_concat, repeatedIds_concat]
      by_cases hn : n.id ∈ list.map Neighbor.id
      · have hpos := List.count_pos_iff.mpr hn
        rw [if_pos hn]
        show distinctIds ((separate {} list).2 ++ [n]) = _
        rw [distinctIds_concat]
        by_cases hrep : n.id ∈ (separate {} list).2.map Neighbor.id
        · rw [if_pos hrep, if_neg (by have := hmem.mp hrep; omega),
            List.append_nil]
          exact ih
        · rw [if_neg hrep, if_pos (by rw [hmem] at hrep; omega), ← ih]
          rfl
      · rw [if_neg hn, List.count_eq_zero.mpr hn, if_neg (by decide),
          List.append_nil]
        exact ih

end Comparator

end KnnOracle
