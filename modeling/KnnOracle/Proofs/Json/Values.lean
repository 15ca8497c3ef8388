/-
Free-form values come back.

A value that was read free-form is plain (`Value.Plain`): its whole
numbers fit into 64 bits, its other numbers are finite, its objects list
their members by strictly rising keys, and no more lists and objects are
nested than the reader allows (`plain_of_toValue?`). What a text repeats
or lists in another order is gone by then. And of the tree of a plain
value the reader makes that value again (`toValue?_tree`): sorting members
that stand in order leaves them alone, and every number keeps its kind.
-/
import KnnOracle.Proofs.Decimal.Finite
import KnnOracle.Proofs.Json.Grammar

namespace KnnOracle.Json

-- ======================================================= sorted members

/-- Members in the strict order of their keys. -/
def Sorted {α : Type} (members : List (String × α)) : Prop :=
  members.Pairwise fun m n => m.1 < n.1

namespace Tree

private theorem mem_putMember {key : String} {v : Value}
    {ms : List (String × Value)} {m : String × Value}
    (h : m ∈ putMember key v ms) : m = (key, v) ∨ m ∈ ms := by
  induction ms with
  | nil => simpa [putMember] using h
  | cons head rest ih =>
      unfold putMember at h
      split at h
      · simpa using h
      split at h
      · simp at h ⊢
        tauto
      · simp at h ⊢
        tauto

private theorem sorted_putMember {key : String} {v : Value}
    {ms : List (String × Value)} (h : Sorted ms) :
    Sorted (putMember key v ms) := by
  induction ms with
  | nil => exact List.pairwise_singleton _ _
  | cons head rest ih =>
      obtain ⟨hhead, hrest⟩ := List.pairwise_cons.mp h
      unfold putMember
      split
      · next hlt =>
          refine List.pairwise_cons.mpr ⟨fun m hm => ?_, h⟩
          cases List.mem_cons.mp hm with
          | inl heq => exact heq ▸ hlt
          | inr hm => exact hlt.trans (hhead m hm)
      split
      · next heq => exact List.pairwise_cons.mpr ⟨heq ▸ hhead, hrest⟩
      · next hnot hne =>
          refine List.pairwise_cons.mpr ⟨fun m hm => ?_, ih hrest⟩
          cases mem_putMember hm with
          | inl heq =>
              exact heq ▸ lt_of_le_of_ne (not_lt.mp hnot) (Ne.symm hne)
          | inr hm => exact hhead m hm

/-- A member whose key is the last one is put at the end. Sorting sorted
members does nothing else. -/
theorem putMember_last {key : String} (v : Value) {ms : List (String × Value)}
    (h : ∀ m ∈ ms, m.1 < key) : putMember key v ms = ms ++ [(key, v)] := by
  induction ms with
  | nil => rfl
  | cons head rest ih =>
      have hhead := h head (List.mem_cons_self ..)
      have hrest := ih fun m hm => h m (List.mem_cons_of_mem _ hm)
      unfold putMember
      rw [if_neg (lt_asymm hhead), if_neg hhead.ne', hrest]
      rfl

/-- Sorting only rearranges and drops, so what holds of all members holds of
the sorted ones. -/
theorem mem_sortMembers {ms : List (String × Value)} {m : String × Value}
    (h : m ∈ sortMembers ms) : m ∈ ms := by
  have hfold : ∀ (ms sorted : List (String × Value)),
      m ∈ ms.foldl (fun sorted m => putMember m.1 m.2 sorted) sorted →
        m ∈ sorted ∨ m ∈ ms := by
    intro ms
    induction ms with
    | nil => exact fun sorted h => .inl h
    | cons head rest ih =>
        intro sorted h
        cases ih _ h with
        | inl hm =>
            cases mem_putMember hm with
            | inl heq => exact .inr (heq ▸ List.mem_cons_self ..)
            | inr hm => exact .inl hm
        | inr hm => exact .inr (List.mem_cons_of_mem _ hm)
  exact (hfold ms [] h).resolve_left (List.not_mem_nil)

/-- So members that come in any order, with keys repeated, leave no trace of
that: the last one of each key is kept, and the keys are sorted. -/
private theorem sorted_sortMembers (ms : List (String × Value)) :
    Sorted (sortMembers ms) := by
  have hfold : ∀ (ms sorted : List (String × Value)), Sorted sorted →
      Sorted (ms.foldl (fun sorted m => putMember m.1 m.2 sorted) sorted) := by
    intro ms
    induction ms with
    | nil => exact fun sorted h => h
    | cons head rest ih => exact fun sorted h => ih _ (sorted_putMember h)
  exact hfold ms [] List.Pairwise.nil

/-- Sorting leaves sorted members alone, which makes a second reading of them
agree with the first. -/
theorem sortMembers_of_sorted {ms : List (String × Value)} (h : Sorted ms) :
    sortMembers ms = ms := by
  have hfold : ∀ (ms sorted : List (String × Value)), Sorted (sorted ++ ms) →
      ms.foldl (fun sorted m => putMember m.1 m.2 sorted) sorted
        = sorted ++ ms := by
    intro ms
    induction ms with
    | nil => intro sorted _; simp
    | cons head rest ih =>
        intro sorted h
        have hlast : ∀ m ∈ sorted, m.1 < head.1 := fun m hm =>
          (List.pairwise_append.mp h).2.2 m hm head (List.mem_cons_self ..)
        rw [List.foldl_cons, putMember_last head.2 hlast,
          ih _ (by simpa using h)]
        simp
  exact hfold ms [] h

end Tree

-- ========================================================= plain values

mutual

/-- A value that a reader of free-form values makes. -/
def Value.Plain (depth : Nat) : Value → Prop
  | .null => True
  | .bool _ => True
  | .int n => -2 ^ 63 ≤ n ∧ n < 2 ^ 64
  | .real x => x.isFinite = true
  | .text _ => True
  | .list items => 0 < depth ∧ PlainItems (depth - 1) items
  | .object members =>
      0 < depth ∧ Sorted members ∧ PlainMembers (depth - 1) members

/-- The items of a plain list. -/
def PlainItems (depth : Nat) : List Value → Prop
  | [] => True
  | v :: rest => v.Plain depth ∧ PlainItems depth rest

/-- The members of a plain object. -/
def PlainMembers (depth : Nat) : List (String × Value) → Prop
  | [] => True
  | (_, v) :: rest => v.Plain depth ∧ PlainMembers depth rest

end

private theorem plainMembers_iff {depth : Nat} {ms : List (String × Value)} :
    PlainMembers depth ms ↔ ∀ m ∈ ms, m.2.Plain depth := by
  induction ms with
  | nil => simp [PlainMembers]
  | cons m ms ih =>
      obtain ⟨key, v⟩ := m
      simp [PlainMembers, ih]

private theorem plain_of_numberValue? {n : Numeral} {v : Value}
    (h : Tree.numberValue? n = some v) (depth : Nat) : v.Plain depth := by
  unfold Tree.numberValue? at h
  split at h
  · next hwhole =>
      cases h
      rw [Value.Plain]
      omega
  split at h
  · next hwhole =>
      cases h
      rw [Value.Plain]
      omega
  · obtain ⟨x, hx, rfl⟩ := Option.map_eq_some_iff.mp h
    rw [Value.Plain]
    exact isFinite_of_float? hx

mutual

/-- What is read free-form is plain: its members are sorted, its numbers are
integers of 64 bits or floats, and it is not nested too deeply. -/
theorem plain_of_toValue? :
    ∀ (depth : Nat) (t : Tree) {v : Value}, t.toValue? depth = some v →
    v.Plain depth
  | depth, .null, _, h => by
      cases h
      trivial
  | depth, .bool b, _, h => by
      cases h
      trivial
  | depth, .number n, _, h => plain_of_numberValue? h depth
  | depth, .string units, _, h => by
      obtain ⟨cs, -, rfl⟩ := Option.map_eq_some_iff.mp h
      trivial
  | depth, .array items, _, h => by
      rw [Tree.toValue?] at h
      split at h
      · cases h
      · next hdepth =>
          obtain ⟨vs, hvs, rfl⟩ := Option.map_eq_some_iff.mp h
          exact ⟨Nat.pos_of_ne_zero hdepth,
            plain_of_toValues? (depth - 1) items hvs⟩
  | depth, .object members, _, h => by
      rw [Tree.toValue?] at h
      split at h
      · cases h
      · next hdepth =>
          obtain ⟨ms, hms, rfl⟩ := Option.map_eq_some_iff.mp h
          have hplain :=
            plainMembers_iff.mp (plain_of_toMembers? (depth - 1) members hms)
          exact ⟨Nat.pos_of_ne_zero hdepth, Tree.sorted_sortMembers ms,
            plainMembers_iff.mpr fun m hm =>
              hplain m (Tree.mem_sortMembers hm)⟩

/-- A list that is taken as a value is plain if its items are: the induction
goes over the tree, with the depth that is left. -/
private theorem plain_of_toValues? :
    ∀ (depth : Nat) (ts : List Tree) {vs : List Value},
    Tree.toValues? depth ts = some vs → PlainItems depth vs
  | depth, [], _, h => by
      cases h
      trivial
  | depth, t :: ts, _, h => by
      rw [Tree.toValues?] at h
      cases ht : t.toValue? depth with
      | none => simp [ht] at h
      | some v =>
          cases hts : Tree.toValues? depth ts with
          | none => simp [ht, hts] at h
          | some vs =>
              simp [ht, hts] at h
              rw [← h]
              exact ⟨plain_of_toValue? depth t ht,
                plain_of_toValues? depth ts hts⟩

private theorem plain_of_toMembers? :
    ∀ (depth : Nat) (ts : List (Units × Tree))
    {ms : List (String × Value)},
      Tree.toMembers? depth ts = some ms → PlainMembers depth ms
  | depth, [], _, h => by
      cases h
      trivial
  | depth, (key, t) :: ts, _, h => by
      rw [Tree.toMembers?] at h
      cases hkey : textOf? key with
      | none => simp [hkey] at h
      | some cs =>
          cases ht : t.toValue? depth with
          | none => simp [hkey, ht] at h
          | some v =>
              cases hts : Tree.toMembers? depth ts with
              | none => simp [hkey, ht, hts] at h
              | some vs =>
                  simp [hkey, ht, hts] at h
                  rw [← h]
                  exact ⟨plain_of_toValue? depth t ht,
                    plain_of_toMembers? depth ts hts⟩

end

-- ========================================================= reading again

/-- An integer that fits into 64 bits is taken as one, so it is not rounded on
its way through a free-form value. -/
private theorem numberValue?_integer {n : Int} (hlow : -2 ^ 63 ≤ n)
    (hhigh : n < 2 ^ 64) :
    Tree.numberValue? (integerNumeral n) = some (.int n) := by
  unfold Tree.numberValue? integerNumeral
  by_cases h : n < 0
  · have hsame : -(n.natAbs : Int) = n := by omega
    have hbounds : 0 < n.natAbs ∧ n.natAbs ≤ 2 ^ 63 := by omega
    simp only [h, hbounds, hsame]
    simp
  · have hsame : (n.natAbs : Int) = n := by omega
    have hbound : n.natAbs < 2 ^ 64 := by omega
    simp only [h, hbound, hsame]
    simp

/-- A number with a point or an exponent is taken as a float, even where its
value is whole. -/
private theorem numberValue?_real {n : Numeral} {x : Float}
    (hintegral : n.integral = false) (h : n.float? = some x) :
    Tree.numberValue? n = some (.real x) := by
  unfold Tree.numberValue?
  rw [hintegral, h]
  rfl

mutual

/-- A plain value is read from its tree as it was. Being plain is just what
this takes. -/
theorem toValue?_tree : ∀ (depth : Nat) (v : Value), v.Plain depth →
    v.tree.toValue? depth = some v
  | depth, .null, _ => rfl
  | depth, .bool b, _ => rfl
  | depth, .int n, h => numberValue?_integer h.1 h.2
  | depth, .real x, h => by
      obtain ⟨n, hn, hintegral, hfloat⟩ := float?_compactNumeral h
      rw [Value.tree, hn]
      exact numberValue?_real hintegral hfloat
  | depth, .text s, _ => by
      rw [Value.tree, Tree.toValue?, textOf?_codePoints]
      simp
  | depth, .list items, h => by
      rw [Value.tree, Tree.toValue?, if_neg h.1.ne',
        toValues?_listTrees (depth - 1) items h.2]
      rfl
  | depth, .object members, h => by
      rw [Value.tree, Tree.toValue?, if_neg h.1.ne',
        toMembers?_memberTrees (depth - 1) members h.2.2]
      exact congrArg (some ∘ Value.object) (Tree.sortMembers_of_sorted h.2.1)

/-- What was written of a plain value is taken for the value again. The
induction goes over the value, with a depth that is enough for it. -/
private theorem toValues?_listTrees :
    ∀ (depth : Nat) (vs : List Value), PlainItems depth vs →
    Tree.toValues? depth (listTrees vs) = some vs
  | depth, [], _ => rfl
  | depth, v :: vs, h => by
      rw [listTrees, Tree.toValues?, toValue?_tree depth v h.1,
        toValues?_listTrees depth vs h.2]
      rfl

private theorem toMembers?_memberTrees :
    ∀ (depth : Nat) (ms : List (String × Value)),
    PlainMembers depth ms → Tree.toMembers? depth (memberTrees ms) = some ms
  | depth, [], _ => rfl
  | depth, (key, v) :: ms, h => by
      rw [memberTrees, Tree.toMembers?, textOf?_codePoints,
        toValue?_tree depth v h.1, toMembers?_memberTrees depth ms h.2]
      simp

end

end KnnOracle.Json
