/-
Decoders that read again what they read.

A decoder is stable under a way of writing if whatever it makes of some
tree, it makes again of the written value (`Stable`). Stability is put
together as decoders are: a list of stable items is stable, and so is an
optional field whose values are not written as `null`. A written object
with distinct keys has exactly the fields that were written
(`fields?_object`), so a structure is stable when its fields are.
-/
import KnnOracle.Proofs.Json.Values

namespace KnnOracle.Json

/-- What the decoder makes of a tree, it makes again of the written
value. -/
def Stable {α : Type} (toJson : α → Value) (ofJson? : Tree → Option α) :
    Prop :=
  ∀ t v, ofJson? t = some v → ofJson? (toJson v).tree = some v

-- ============================================================== scalars

/-- A number below the limit is read back. It is written as a whole number
without a sign, so that the limit is all that could stop it. -/
theorem natural?_nat {n limit : Nat} (h : n < limit) :
    (Value.nat n).tree.natural? limit = some n := by
  have hsign : ¬(n : Int) < 0 := by omega
  simp [Value.nat, Value.tree, integerNumeral, Tree.natural?, Numeral.natural?,
    hsign, h]

/-- Only numbers below the limit are read, which is what `natural?_nat` asks
for when the number is written again. -/
private theorem lt_of_natural? {limit n : Nat} {t : Tree}
    (h : t.natural? limit = some n) : n < limit := by
  unfold Tree.natural? at h
  split at h
  · split at h
    · split at h
      · next hlt =>
          cases h
          exact hlt
      · cases h
    · cases h
  · cases h

/-- Whole numbers are stable under any limit, so this serves ids, sizes and
layer counts alike. -/
theorem stable_natural (limit : Nat) :
    Stable Value.nat (Tree.natural? limit) := fun _ _ h =>
  natural?_nat (lt_of_natural? h)

/-- A finite float is read back with every bit. Without finiteness it would be
written as `null`. -/
theorem float?_real {x : Float} (h : x.isFinite = true) :
    (Value.real x).tree.float? = some x := by
  obtain ⟨n, hn, -, hx⟩ := float?_compactNumeral h
  rw [Value.tree, hn]
  exact hx

/-- Only finite floats are read. A numeral that is too large for a float is
refused, not read as an infinity. -/
theorem isFinite_of_tree_float? {t : Tree} {x : Float}
    (h : t.float? = some x) :
    x.isFinite = true := by
  cases t with
  | number n => exact isFinite_of_float? h
  | _ => cases h

/-- Floats are stable: what is read is finite, and what is finite is read
back. -/
theorem stable_float : Stable Value.real Tree.float? := fun _ _ h =>
  float?_real (isFinite_of_tree_float? h)

/-- Texts are stable, since writing one keeps its code points. -/
theorem stable_text : Stable Value.text Tree.text? := fun _ s _ => by
  rw [Value.tree, text?_codePoints]

/-- Booleans are stable, for there is one way to write each. -/
theorem stable_bool : Stable Value.bool Tree.bool? := fun _ _ _ => rfl

/-- Free-form values are written as they are. They were sorted and numbered
when they were read. -/
theorem stable_value (depth : Nat) : Stable id (Tree.toValue? depth) :=
  fun t v h =>
  toValue?_tree depth v (plain_of_toValue? depth t h)

-- ================================================================ lists

theorem mapM_listTrees {α : Type} {toJson : α → Value}
    {ofJson? : Tree → Option α} {as : List α}
    (h : ∀ a ∈ as, ofJson? (toJson a).tree = some a) :
    (listTrees (as.map toJson)).mapM ofJson? = some as := by
  induction as with
  | nil => rfl
  | cons a as ih =>
      have hrest := ih fun b hb => h b (List.mem_cons_of_mem a hb)
      rw [List.map_cons, listTrees, List.mapM_cons,
        h a List.mem_cons_self, hrest]
      rfl

/-- What is in a list that was read was read itself, so that stability of the
items carries over to the list. -/
theorem exists_of_mapM {α : Type} {ofJson? : Tree → Option α} {ts : List Tree}
    {as : List α} (hts : ts.mapM ofJson? = some as) :
    ∀ a ∈ as, ∃ t, ofJson? t = some a := by
  induction ts generalizing as with
  | nil =>
      cases hts
      exact fun a ha => by cases ha
  | cons t ts ih =>
      rw [List.mapM_cons] at hts
      cases ht : ofJson? t with
      | none => simp [ht] at hts
      | some a =>
          cases hrest : ts.mapM ofJson? with
          | none => simp [ht, hrest] at hts
          | some as =>
              simp [ht, hrest] at hts
              subst hts
              exact List.forall_mem_cons.mpr ⟨⟨t, ht⟩, ih hrest⟩

/-- A list is stable when its items are. -/
theorem stable_list {α : Type} {toJson : α → Value} {ofJson? : Tree → Option α}
    (h : Stable toJson ofJson?) :
    Stable (fun as => .list (as.map toJson)) (Tree.list? ofJson?) := by
  intro t as ht
  cases t with
  | array ts =>
      rw [Value.tree]
      refine mapM_listTrees fun a ha => ?_
      obtain ⟨t, hitem⟩ := exists_of_mapM ht a ha
      exact h t a hitem
  | _ => cases ht

-- =============================================================== options

/-- Off `null` an optional value is read as a value. Hence the fields that may
be left out need a writer that never gives `null`. -/
theorem option?_of_ne {α : Type} {ofJson? : Tree → Option α} {t : Tree}
    (h : t ≠ .null) :
    t.option? ofJson? = (ofJson? t).map some := by
  cases t with
  | null => exact absurd rfl h
  | _ => rfl

/-- An optional field is stable if what it can hold is not written as
`null`. -/
theorem optionalField?_ofOption {α : Type} {toJson : α → Value}
    {ofJson? : Tree → Option α} (h : Stable toJson ofJson?)
    (hnull : ∀ t v, t ≠ .null → ofJson? t = some v → (toJson v).tree ≠ .null)
    {field : Option Tree} {o : Option α}
    (ho : Tree.optionalField? ofJson? field = some o) :
    Tree.optionalField? ofJson? (some (Value.ofOption toJson o).tree)
      = some o := by
  cases o with
  | none => rfl
  | some v =>
      cases field with
      | none => cases ho
      | some t =>
          have hne : t ≠ .null := fun heq => by
            rw [heq] at ho
            cases ho
          obtain ⟨w, hw, heq⟩ :=
            Option.map_eq_some_iff.mp ((option?_of_ne hne).symm.trans ho)
          cases heq
          exact (option?_of_ne (hnull t v hne hw)).trans
            (congrArg (Option.map some) (h t v hw))

theorem eq_null_of_toValue? {depth : Nat} {t : Tree}
    (h : t.toValue? depth = some .null) :
    t = .null := by
  cases t with
  | null => rfl
  | bool b => cases h
  | number n =>
      rw [Tree.toValue?, Tree.numberValue?] at h
      split at h
      · cases h
      split at h
      · cases h
      · obtain ⟨x, -, heq⟩ := Option.map_eq_some_iff.mp h
        cases heq
  | string units =>
      obtain ⟨cs, -, heq⟩ := Option.map_eq_some_iff.mp h
      cases heq
  | array items =>
      rw [Tree.toValue?] at h
      split at h
      · cases h
      · obtain ⟨vs, -, heq⟩ := Option.map_eq_some_iff.mp h
        cases heq
  | object members =>
      rw [Tree.toValue?] at h
      split at h
      · cases h
      · obtain ⟨ms, -, heq⟩ := Option.map_eq_some_iff.mp h
        cases heq

/-- Nothing but `null` is read free-form as the null, so metadata that is there
is not taken for metadata that is left out. -/
theorem value_ne_null {depth : Nat} (t : Tree) (v : Value) (hne : t ≠ .null)
    (h : t.toValue? depth = some v) : (id v).tree ≠ .null := fun htree => by
  have hsame := stable_value depth t v h
  rw [htree] at hsame
  cases hsame
  exact hne (eq_null_of_toValue? h)

/-- Where a decoder refuses `null`, nothing it reads is written as one. -/
theorem ne_null_of_stable {α : Type} {toJson : α → Value}
    {ofJson? : Tree → Option α} (h : Stable toJson ofJson?)
    (hnull : ofJson? .null = none) (t : Tree) (v : α) (_ : t ≠ .null)
    (ht : ofJson? t = some v) : (toJson v).tree ≠ .null := fun htree => by
  have hsame := h t v ht
  rw [htree, hnull] at hsame
  cases hsame

-- ============================================================ structures

private theorem keyed?_memberTrees (ms : List (String × Value)) :
    Tree.keyed? (memberTrees ms) = some (ms.map fun m => (m.1, m.2.tree)) := by
  induction ms with
  | nil => rfl
  | cons m ms ih =>
      obtain ⟨key, v⟩ := m
      simp [memberTrees, Tree.keyed?, textOf?_codePoints, ih]

/-- With distinct keys, a name has at most one member. -/
theorem filter_key {ms : List (String × Tree)} (h : (ms.map Prod.fst).Nodup)
    (name : String) :
    ms.filter (fun m => m.1 == name) = (ms.lookup name).toList.map fun t =>
      (name, t) := by
  induction ms with
  | nil => rfl
  | cons m ms ih =>
      obtain ⟨key, t⟩ := m
      obtain ⟨hnot, hrest⟩ := List.nodup_cons.mp h
      by_cases hkey : key = name
      · subst hkey
        have hnone : ms.filter (fun m => m.1 == key) = [] :=
            List.filter_eq_nil_iff.mpr fun m hm => by
          simpa using fun heq : m.1 = key =>
            hnot (List.mem_map.mpr ⟨m, hm, heq⟩)
        simp [hnone]
      · have hne : (name == key) = false :=
          beq_eq_false_iff_ne.mpr fun heq => hkey heq.symm
        simp [List.lookup_cons, hkey, hne, ih hrest]

/-- With distinct keys no field is there twice, so the search for a field is a
plain lookup. -/
private theorem unique?_of_nodup {ms : List (String × Tree)}
    (h : (ms.map Prod.fst).Nodup) (name : String) :
    Tree.unique? ms name = some (ms.lookup name) := by
  unfold Tree.unique?
  rw [filter_key h]
  cases ms.lookup name <;> rfl

private theorem lookup_map_tree (ms : List (String × Value)) (name : String) :
    (ms.map fun m => (m.1, m.2.tree)).lookup name
      = (ms.lookup name).map Value.tree := by
  induction ms with
  | nil => rfl
  | cons m ms ih =>
      obtain ⟨key, v⟩ := m
      cases h : name == key <;> simp [List.lookup_cons, h, ih]

/-- The fields of a written object are those that were written, in the order
that the decoder asks for. Every structure is shown to be stable through
this. -/
theorem fields?_object {ms : List (String × Value)}
    (h : (ms.map Prod.fst).Nodup) (names : List String) (omissible : Nat) :
    (Value.object ms).tree.fields? names omissible
      = some (names.map fun name => (ms.lookup name).map Value.tree) := by
  have hkeys : ((ms.map fun m => (m.1, m.2.tree)).map Prod.fst).Nodup := by
    rw [List.map_map]
    exact h
  have hunique : Tree.unique? (ms.map fun m => (m.1, m.2.tree))
      = fun name => some ((ms.lookup name).map Value.tree) :=
        funext fun name => by
    rw [unique?_of_nodup hkeys, lookup_map_tree]
  rw [Value.tree, Tree.fields?, keyed?_memberTrees]
  change names.mapM (Tree.unique? _) = _
  rw [hunique]
  exact List.mapM_pure

end KnnOracle.Json
