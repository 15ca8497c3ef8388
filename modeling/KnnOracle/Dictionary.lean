/-
Small dictionaries.

A dictionary is a list of keys with values in which no key repeats as
long as it is built by `put` and `erase`. Putting a value under a key
that is there replaces the old one in place; a new key goes to the end.
-/
namespace KnnOracle

/-- Values by key. -/
structure Dictionary (κ : Type) (ν : Type) where
  entries : List (κ × ν)

namespace Dictionary

variable {κ ν : Type} [DecidableEq κ]

/-- A dictionary without keys. -/
def empty : Dictionary κ ν := ⟨[]⟩

/-- The value under a key in a list of entries. -/
def lookup (key : κ) : List (κ × ν) → Option ν
  | [] => none
  | (k, v) :: rest => if k = key then some v else lookup key rest

/-- The value under a key. -/
def get? (d : Dictionary κ ν) (key : κ) : Option ν := lookup key d.entries

/-- Whether a key is there. -/
def contains (d : Dictionary κ ν) (key : κ) : Bool := (d.get? key).isSome

/-- Puts a value under a key in a list of entries. -/
def update (key : κ) (value : ν) : List (κ × ν) → List (κ × ν)
  | [] => [(key, value)]
  | (k, v) :: rest =>
      if k = key then (key, value) :: rest else (k, v) :: update key value rest

/-- Puts a value under a key. -/
def put (d : Dictionary κ ν) (key : κ) (value : ν) : Dictionary κ ν :=
  ⟨update key value d.entries⟩

/-- Drops a key. -/
def erase (d : Dictionary κ ν) (key : κ) : Dictionary κ ν :=
  ⟨d.entries.filter fun e => !decide (e.1 = key)⟩

/-- The keys in their order. -/
def keys (d : Dictionary κ ν) : List κ := d.entries.map Prod.fst

/-- The values in the order of their keys. -/
def values (d : Dictionary κ ν) : List ν := d.entries.map Prod.snd

-- ============================================================ the laws

/-- A value put under a key is found there, and nothing else changes. -/
theorem get?_put (d : Dictionary κ ν) (key other : κ) (value : ν) :
    (d.put key value).get? other = if key = other then some value
      else d.get? other := by
  obtain ⟨entries⟩ := d
  simp only [put, get?]
  induction entries with
  | nil => simp [update, lookup]
  | cons e rest ih =>
      obtain ⟨k, v⟩ := e
      simp only [update]
      by_cases hk : k = key
      · subst hk
        by_cases ho : k = other <;> simp [lookup, ho]
      · rw [if_neg hk]
        by_cases ho : k = other
        · subst ho
          simp [lookup, Ne.symm hk]
        · simp only [lookup, if_neg ho]
          exact ih

/-- What was put under a key is found there. -/
theorem get?_put_self (d : Dictionary κ ν) (key : κ) (value : ν) :
    (d.put key value).get? key = some value := by
  rw [get?_put, if_pos rfl]

/-- A key that was dropped is not found, and nothing else changes. -/
theorem get?_erase (d : Dictionary κ ν) (key other : κ) :
    (d.erase key).get? other = if key = other then none else d.get? other := by
  obtain ⟨entries⟩ := d
  simp only [erase, get?]
  induction entries with
  | nil => simp [lookup]
  | cons e rest ih =>
      obtain ⟨k, v⟩ := e
      by_cases hk : k = key
      · subst hk
        by_cases ho : k = other
        · simpa [lookup, ho] using ih
        · simpa [lookup, ho] using ih
      · by_cases ho : k = other
        · subst ho
          simp [lookup, hk, Ne.symm hk]
        · simpa [lookup, hk, ho] using ih

/-- What is still found was there before. -/
theorem get?_of_erase {d : Dictionary κ ν} {key other : κ} {v : ν}
    (h : (d.erase key).get? other = some v) : d.get? other = some v := by
  rw [get?_erase] at h
  split at h
  · cases h
  · exact h

/-- What is found is found under one of the keys. -/
theorem mem_keys {d : Dictionary κ ν} {key : κ}
    (h : (d.get? key).isSome) : key ∈ d.keys := by
  obtain ⟨entries⟩ := d
  unfold get? at h
  dsimp only at h
  induction entries with
  | nil => cases h
  | cons e rest ih =>
      unfold lookup at h
      split at h
      · next hkey => exact hkey ▸ List.mem_cons_self ..
      · exact List.mem_cons_of_mem _ (ih h)

/-- Putting a value adds no key but its own. -/
theorem mem_keys_put {d : Dictionary κ ν} {key other : κ} {value : ν}
    (h : other ∈ (d.put key value).keys) : other = key ∨ other ∈ d.keys := by
  obtain ⟨entries⟩ := d
  unfold put keys at h
  dsimp only at h
  induction entries with
  | nil => exact .inl (List.mem_singleton.mp h)
  | cons e rest ih =>
      unfold update at h
      split at h
      · rcases List.mem_cons.mp h with hkey | hrest
        · exact .inl hkey
        · exact .inr (List.mem_cons_of_mem _ hrest)
      · rcases List.mem_cons.mp h with hkey | hrest
        · exact .inr (List.mem_cons.mpr (.inl hkey))
        · exact (ih hrest).imp_right (List.mem_cons_of_mem _)

/-- What is found is one of the values. -/
theorem mem_values {d : Dictionary κ ν} {key : κ} {v : ν}
    (h : d.get? key = some v) : v ∈ d.values := by
  obtain ⟨entries⟩ := d
  unfold get? at h
  dsimp only at h
  induction entries with
  | nil => cases h
  | cons e rest ih =>
      unfold lookup at h
      split at h
      · cases h
        exact List.mem_cons_self ..
      · exact List.mem_cons_of_mem _ (ih h)

end Dictionary

end KnnOracle
