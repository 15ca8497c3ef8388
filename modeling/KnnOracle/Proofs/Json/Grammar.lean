/-
What is written is read.

The text of a value is read as one tree, the value's own (`Value.tree`):
its strings by their code points, its numbers by the numerals they are
written with, its lists and members in the order they stand in
(`parse?_render`).

# The induction

It goes over the value. A value's text is followed by a comma, a bracket
or nothing, and the reader stops there (`Ends`). It needs no more fuel than
the text has characters: every level of nesting takes two of them, for its
brackets, and every item but the last one for its comma
(`value?_chars`, `items?_chars`, `members?_chars`).
-/
import KnnOracle.Proofs.Json.Numerals
import KnnOracle.Proofs.Json.Strings

namespace KnnOracle.Json

-- ============================================================ the trees

mutual

/-- What the text of a value says. -/
def Value.tree : Value → Tree
  | .null => .null
  | .bool b => .bool b
  | .int n => .number (integerNumeral n)
  | .real x => (compactNumeral? x).elim .null .number
  | .text s => .string (codePoints s)
  | .list items => .array (listTrees items)
  | .object members => .object (memberTrees members)

/-- What the texts of the items say. -/
def listTrees : List Value → List Tree
  | [] => []
  | v :: rest => v.tree :: listTrees rest

/-- What the texts of the members say. -/
def memberTrees : List (String × Value) → List (Units × Tree)
  | [] => []
  | (key, v) :: rest => (codePoints key, v.tree) :: memberTrees rest

end

-- ================================================================ heads

/-- What stands behind an item or a member ends a numeral, so that the reader
of numbers stops there. These are the three ways in which it can be the end of
one. -/
private theorem ends_comma (rest : List Char) : Ends (',' :: rest) :=
  ends_cons ⟨rfl, by decide⟩

private theorem ends_bracket (rest : List Char) : Ends (']' :: rest) :=
  ends_cons ⟨rfl, by decide⟩

private theorem ends_brace (rest : List Char) : Ends ('\x7d' :: rest) :=
  ends_cons ⟨rfl, by decide⟩

/-- A character that begins a value: no blank, and no closing bracket. -/
def Begins (c : Char) : Prop := isBlank c = false ∧ c ≠ ']'

/-- Writing leaves no blanks, so the reader never has any to skip. -/
private theorem skip_cons {c : Char} (h : isBlank c = false) (cs : List Char) :
    skip (c :: cs) = c :: cs := by
  simp [skip, h]

/-- A numeral begins with a minus or a digit, which no other value does. The
reader chooses by this character. -/
theorem numeral?_head {cs : List Char} {r : Numeral × List Char}
    (h : numeral? cs = some r) :
    ∃ c tail, cs = c :: tail ∧ (c = '-' ∨ Decimal.isDigit c = true) := by
  cases cs with
  | nil => cases h
  | cons c cs =>
      by_cases hminus : c = '-'
      · exact ⟨c, cs, rfl, .inl hminus⟩
      · have hunsigned := numeral?_signed false hminus cs
        simp only [Bool.false_eq_true, if_false, List.nil_append, h]
          at hunsigned
        refine ⟨c, cs, rfl, .inr ?_⟩
        unfold unsigned? at hunsigned
        split at hunsigned
        · next heq =>
            cases heq
            rfl
        · next heq =>
            cases heq
            by_contra hdigit
            rw [if_neg hdigit] at hunsigned
            cases hunsigned
        · cases hunsigned

/-- A numeral cannot be taken for anything else that a value may begin with:
the reader tells them apart by their first character. -/
private theorem begins_of_numeral {c : Char}
    (h : c = '-' ∨ Decimal.isDigit c = true) :
    Begins c ∧ c ≠ 'n' ∧ c ≠ 't' ∧ c ≠ 'f' ∧ c ≠ '"' ∧ c ≠ '[' ∧
      c ≠ '\x7b' := by
  have hcases : ∀ d : Char, (d = '-' ∨ Decimal.isDigit d = true → False) →
    c ≠ d := fun d hd heq =>
    hd (heq ▸ h)
  refine ⟨⟨?_, hcases _ (by decide)⟩, hcases _ (by decide),
    hcases _ (by decide),
    hcases _ (by decide), hcases _ (by decide), hcases _ (by decide),
      hcases _ (by decide)⟩
  have hspace := hcases ' ' (by decide)
  have hline := hcases '\n' (by decide)
  have htab := hcases '\t' (by decide)
  have hreturn := hcases '\r' (by decide)
  simp [isBlank, hspace, hline, htab, hreturn]

/-- What reads as a numeral is read as a number. -/
theorem value?_of_numeral? {cs : List Char} {n : Numeral} {rest : List Char}
    (h : numeral? cs = some (n, rest)) (fuel : Nat) :
    value? (fuel + 1) cs = some (.number n, rest) := by
  obtain ⟨c, tail, rfl, hc⟩ := numeral?_head h
  obtain ⟨⟨hblank, -⟩, hn, ht, hf, hquote, hlist, hobject⟩ :=
    begins_of_numeral hc
  rw [value?, skip_cons hblank]
  split <;> simp_all

/-- The first character of a value's text tells its kind and closes nothing, so
an item that begins is never taken for the end of a list. -/
theorem chars_head (v : Value) : ∃ c cs, v.chars = c :: cs ∧ Begins c := by
  have hnumeral : ∀ {cs : List Char} {n : Numeral},
      numeral? (cs ++ []) = some (n, []) →
      ∃ c tail, cs = c :: tail ∧ Begins c := fun h => by
    rw [List.append_nil] at h
    obtain ⟨c, tail, hcs, hc⟩ := numeral?_head h
    exact ⟨c, tail, hcs, (begins_of_numeral hc).1⟩
  cases v with
  | null => exact ⟨_, _, by rw [Value.chars], rfl, by decide⟩
  | bool b => cases b <;> exact ⟨_, _, by rw [Value.chars], rfl, by decide⟩
  | int n =>
      rw [Value.chars]
      exact hnumeral (numeral?_integer n ends_nil)
  | real x =>
      rw [Value.chars, real]
      cases h : Decimal.compact? x with
      | none => exact ⟨_, _, rfl, rfl, by decide⟩
      | some cs =>
          obtain ⟨n, -, hn⟩ := numeral?_compact h ends_nil
          exact hnumeral hn
  | text s => exact ⟨_, _, by rw [Value.chars]; rfl, rfl, by decide⟩
  | list items => exact ⟨_, _, by rw [Value.chars]; rfl, rfl, by decide⟩
  | object members => exact ⟨_, _, by rw [Value.chars]; rfl, rfl, by decide⟩

/-- The separator is there from the second text on, which is where the readers
of items and members look for it. -/
private theorem joinWith_cons_cons (separator x y : List Char)
    (rest : List (List Char)) :
    joinWith separator (x :: y :: rest)
      = x ++ separator ++ joinWith separator (y :: rest) := rfl

-- ============================================================ the reader

private theorem value?_string (s : String) (fuel : Nat) (rest : List Char) :
    value? (fuel + 1) (quote s ++ rest)
      = some (.string (codePoints s), rest) := by
  have hquoted := quoted?_quoted [] s.toList rest
  have htext : quote s ++ rest
      = '"' :: (s.toList.flatMap escape ++ '"' :: rest) := by
    simp [quote]
  rw [htext, value?, skip_cons rfl]
  simp only [hquoted]
  rfl

/-- A list with an item does not begin with its closing bracket, which is how
the reader tells it from an empty one. -/
private theorem items_head (v : Value) (vs : List Value) :
    ∃ c cs, joinWith [','] (listChars (v :: vs)) = c :: cs ∧ Begins c := by
  obtain ⟨c, cs, hcs, hc⟩ := chars_head v
  cases vs with
  | nil => exact ⟨c, cs, by rw [listChars, listChars, hcs]; rfl, hc⟩
  | cons w vs => exact ⟨c, _, by rw [listChars, listChars, hcs]; rfl, hc⟩

/-- An object with a member begins with the quotes of its key and not with its
closing brace, as with lists. -/
private theorem members_head (m : String × Value)
    (ms : List (String × Value)) :
    ∃ cs, joinWith [','] (memberChars (m :: ms)) = '"' :: cs := by
  obtain ⟨key, v⟩ := m
  cases ms with
  | nil => exact ⟨_, by rw [memberChars, memberChars]; rfl⟩
  | cons m ms => exact ⟨_, by rw [memberChars, memberChars]; rfl⟩

-- One step for each form of a list's and of an object's rest.

variable {fuel : Nat} {cs rest : List Char} {t : Tree}

/-- One unit of fuel opens a list; its items are read with what is left. -/
private theorem value?_array {c : Char} {ts : List Tree} (hc : Begins c)
    (h : items? fuel (c :: cs) = some (ts, rest)) :
    value? (fuel + 1) ('[' :: c :: cs) = some (.array ts, rest) := by
  obtain ⟨hblank, hne⟩ := hc
  rw [value?, skip_cons rfl]
  simp only [skip_cons hblank]
  split
  · simp_all
  · rw [h]

private theorem items?_last (h : value? fuel cs = some (t, ']' :: rest)) :
    items? (fuel + 1) cs = some ([t], rest) := by
  rw [items?, h]
  simp only [skip_cons (show isBlank ']' = false from rfl)]

private theorem items?_more {cs' : List Char} {ts : List Tree}
    (h : value? fuel cs = some (t, ',' :: cs'))
    (hmore : items? fuel cs' = some (ts, rest)) :
    items? (fuel + 1) cs = some (t :: ts, rest) := by
  rw [items?, h]
  simp only [skip_cons (show isBlank ',' = false from rfl), hmore]

private theorem value?_object {ms : List (Units × Tree)}
    (h : members? fuel ('"' :: cs) = some (ms, rest)) :
    value? (fuel + 1) ('\x7b' :: '"' :: cs) = some (.object ms, rest) := by
  rw [value?, skip_cons rfl]
  simp only [skip_cons (show isBlank '"' = false from rfl)]
  split
  · simp_all
  · rw [h]

theorem members?_key (key : String) (cs : List Char) :
    members? (fuel + 1) (quote key ++ ':' :: cs)
      = match value? fuel cs with
        | none => none
        | some (value, rest) =>
            match skip rest with
            | '\x7d' :: rest => some ([(codePoints key, value)], rest)
            | ',' :: rest =>
                match members? fuel rest with
                | some (members, rest) =>
                    some ((codePoints key, value) :: members, rest)
                | none => none
            | _ => none := by
  have hquoted := quoted?_quoted [] key.toList (':' :: cs)
  have htext : quote key ++ ':' :: cs
      = '"' :: (key.toList.flatMap escape ++ '"' :: ':' :: cs) := by
    simp [quote]
  rw [htext, members?, skip_cons rfl]
  simp only [hquoted, skip_cons (show isBlank ':' = false from rfl)]
  rfl

private theorem members?_last (key : String)
    (h : value? fuel cs = some (t, '\x7d' :: rest)) :
    members? (fuel + 1) (quote key ++ ':' :: cs)
      = some ([(codePoints key, t)], rest) := by
  rw [members?_key, h]
  simp only [skip_cons (show isBlank '\x7d' = false from rfl)]

private theorem members?_more (key : String) {cs' : List Char}
    {ms : List (Units × Tree)} (h : value? fuel cs = some (t, ',' :: cs'))
    (hmore : members? fuel cs' = some (ms, rest)) :
    members? (fuel + 1) (quote key ++ ':' :: cs)
      = some ((codePoints key, t) :: ms, rest) := by
  rw [members?_key, h]
  simp only [skip_cons (show isBlank ',' = false from rfl), hmore]

mutual

/-- The text of a value is read as its tree, up to what ends it. The three
lemmas are one induction, as values, items and members contain each other. -/
theorem value?_chars :
    ∀ (v : Value) (fuel : Nat) (rest : List Char), v.chars.length ≤ fuel →
    Ends rest → value? fuel (v.chars ++ rest) = some (v.tree, rest)
  | _, 0, _, hfuel, _ => by
      obtain ⟨c, cs, hcs, -⟩ := chars_head ‹Value›
      rw [hcs] at hfuel
      simp at hfuel
  | .null, fuel + 1, rest, _, _ =>
      by simp [Value.chars, Value.tree, value?, skip, isBlank]
  | .bool true, fuel + 1, rest, _, _ =>
      by simp [Value.chars, Value.tree, value?, skip, isBlank]
  | .bool false, fuel + 1, rest, _, _ =>
      by simp [Value.chars, Value.tree, value?, skip, isBlank]
  | .int n, fuel + 1, rest, _, hrest => by
      rw [Value.chars, Value.tree]
      exact value?_of_numeral? (numeral?_integer n hrest) fuel
  | .real x, fuel + 1, rest, hfuel, hrest => by
      rw [Value.chars, Value.tree, real]
      cases h : Decimal.compact? x with
      | none =>
          rw [compactNumeral?_eq_none h]
          simp [value?, skip, isBlank]
      | some cs =>
          obtain ⟨n, hn, hcs⟩ := numeral?_compact h hrest
          rw [hn]
          exact value?_of_numeral? hcs fuel
  | .text s, fuel + 1, rest, _, _ => by
      rw [Value.chars, Value.tree]
      exact value?_string s fuel rest
  | .list [], fuel + 1, rest, _, _ => by
      simp [Value.chars, Value.tree, listChars, listTrees, joinWith, value?,
        skip, isBlank]
  | .list (v :: vs), fuel + 1, rest, hfuel, _ => by
      simp only [Value.chars, List.length_cons, List.length_append] at hfuel
      have hitems := items?_chars v vs fuel rest (by simp at hfuel; omega)
      obtain ⟨c, cs, hcs, hc⟩ := items_head v vs
      rw [Value.chars, Value.tree]
      rw [hcs] at hitems ⊢
      simpa using value?_array hc hitems
  | .object [], fuel + 1, rest, hfuel, _ => by
      simp [Value.chars, Value.tree, memberChars, memberTrees, joinWith,
        value?, skip, isBlank, openBrace, closeBrace]
  | .object (m :: ms), fuel + 1, rest, hfuel, _ => by
      simp only [Value.chars, List.length_cons, List.length_append] at hfuel
      have hmembers := members?_chars m ms fuel rest (by simp at hfuel; omega)
      obtain ⟨cs, hcs⟩ := members_head m ms
      rw [Value.chars, Value.tree]
      rw [hcs] at hmembers ⊢
      simpa [openBrace, closeBrace] using value?_object hmembers

theorem items?_chars :
    ∀ (v : Value) (vs : List Value) (fuel : Nat) (rest : List Char),
    (joinWith [','] (listChars (v :: vs))).length + 1 ≤ fuel →
    items? fuel (joinWith [','] (listChars (v :: vs)) ++ ']' :: rest)
      = some (listTrees (v :: vs), rest)
  | v, [], fuel + 1, rest, hfuel => by
      have hvalue :=
        value?_chars v fuel (']' :: rest)
          (by simpa [listChars, joinWith] using hfuel)
        (ends_bracket rest)
      exact items?_last hvalue
  | v, w :: vs, fuel + 1, rest, hfuel => by
      rw [listChars, listChars, joinWith_cons_cons, ← listChars] at hfuel ⊢
      simp only [List.length_append] at hfuel
      have hvalue := value?_chars v fuel
        (',' :: (joinWith [','] (listChars (w :: vs)) ++ ']' :: rest))
          (by omega) (ends_comma _)
      have hitems := items?_chars w vs fuel rest (by simp at hfuel; omega)
      have hmore := items?_more hvalue hitems
      simpa [listTrees] using hmore

theorem members?_chars :
    ∀ (m : String × Value) (ms : List (String × Value)) (fuel : Nat)
    (rest : List Char), (joinWith [','] (memberChars (m :: ms))).length + 1
      ≤ fuel →
    members? fuel (joinWith [','] (memberChars (m :: ms)) ++ '\x7d' :: rest)
      = some (memberTrees (m :: ms), rest)
  | (key, v), [], fuel + 1, rest, hfuel => by
      simp only [memberChars, joinWith, List.length_append, List.length_cons]
        at hfuel
      have hvalue :=
        value?_chars v fuel ('\x7d' :: rest) (by omega) (ends_brace rest)
      have hlast := members?_last key hvalue
      simpa [memberChars, memberTrees, joinWith] using hlast
  | (key, v), (key', w) :: ms, fuel + 1, rest, hfuel => by
      rw [memberChars, memberChars, joinWith_cons_cons, ← memberChars]
        at hfuel ⊢
      simp only [List.length_append, List.length_cons] at hfuel
      have hvalue := value?_chars v fuel
        (','
          :: (joinWith [','] (memberChars ((key', w) :: ms)) ++ '\x7d'
            :: rest)) (by omega)
        (ends_comma _)
      have hmembers :=
        members?_chars (key', w) ms fuel rest (by simp at hfuel; omega)
      have hmore := members?_more key hvalue hmembers
      simpa [memberTrees] using hmore

end

/-- A written value is read as its tree, with all of its text used up. -/
theorem parse?_render (v : Value) : Tree.parse? v.render = some v.tree := by
  have hvalue := value?_chars v (2 * v.chars.length + 2) [] (by omega) ends_nil
  rw [List.append_nil] at hvalue
  unfold Tree.parse? Tree.parseChars? Value.render
  rw [String.toList_ofList, hvalue]
  rfl

/-- Reading a written value is decoding its tree. From here on nothing about
characters is needed. -/
theorem decode?_render {α : Type} (decoder : Tree → Option α) (v : Value) :
    decode? decoder v.render = decoder v.tree := by
  rw [decode?, parse?_render]
  rfl

end KnnOracle.Json
