/-
The reader of JSON texts, told step by step.

What the reader does next hangs on one character: the first that is no
blank (`afterBlanks?`). A value is told by its first character
(`value?_succ`), a list and an object by their first item and what is
behind it (`items?_succ`, `members?_succ`). Lists and objects share their
two steps, what stands behind the opening bracket (`bracketed?`) and what
stands behind an item (`further?`).

Numerals and strings have their steps too: the digits of an exponent
(`power?`) and of places, and the three kinds of escapes.

A law that every step keeps is a law of the reader.
-/
import KnnOracle.Proofs.Json.Grammar

namespace KnnOracle.Json

open Decimal

-- ============================================================== strings

/-- A control character is no part of a string, so a string never goes on in
the next line. -/
theorem quoted?_control {c : Char} (h : c.toNat < 0x20) (acc : Units)
    (rest : List Char) :
    quoted? acc (c :: rest) = none := by
  have hquote : c ≠ '"' := fun heq => absurd (heq ▸ h) (by decide)
  have hslash : c ≠ '\\' := fun heq => absurd (heq ▸ h) (by decide)
  rw [quoted?]
  · rw [if_pos (.inl h)]
  all_goals simp_all

theorem quoted?_letter {e : Char} (he : e ≠ 'u') (acc : Units)
    (rest : List Char) :
    quoted? acc ('\\' :: e :: rest)
      = (escapeUnit? e).bind fun unit => quoted? (unit :: acc) rest := by
  rw [quoted?]
  · cases escapeUnit? e <;> rfl
  all_goals simp_all

/-- An escape whose digits are too few, or name no unit. -/
theorem quoted?_unnamed {rest : List Char}
    (h : ∀ a b c d more, rest = a :: b :: c :: d :: more →
      hexUnit? a b c d = none)
    (acc : Units) :
    quoted? acc ('\\' :: 'u' :: rest) = none := by
  match rest with
  | [] | [_] | [_, _] | [_, _, _] => rfl
  | a :: b :: c :: d :: more => rw [quoted?, h a b c d more rfl]

-- ============================================================= numerals

/-- Reads the digits of an exponent. -/
def power? (negative : Bool) (cs : List Char) : Option (Int × List Char) :=
  let digits := cs.takeWhile isDigit
  if digits = [] then none
  else
    let power : Int := valueOf 0 digits
    some (if negative then -power else power, cs.dropWhile isDigit)

/-- The sign of an exponent may be missing. Then all that is there is read as
digits. -/
theorem exponent?_unsigned {c : Char} (hminus : c ≠ '-') (hplus : c ≠ '+')
    (cs : List Char) :
    exponent? (c :: cs) = power? false (c :: cs) := by
  unfold exponent?
  split
  split at * <;> simp_all [power?]

/-- A numeral has places exactly if a point follows its whole part. -/
theorem eq_point_cons {cs : List Char} (h : ¬∀ c ∈ cs.head?, c ≠ '.') :
    ∃ tail, cs = '.' :: tail := by
  cases cs with
  | nil => simp at h
  | cons c cs => exact ⟨cs, by simpa using h⟩

theorem places?_places (negative : Bool) (whole : Nat) (cs : List Char) :
    places? negative whole ('.' :: cs)
      = if cs.takeWhile isDigit = [] then none
        else powered? ⟨negative, valueOf whole (cs.takeWhile isDigit),
          -((cs.takeWhile isDigit).length : Int), false⟩
            (cs.dropWhile isDigit) := by
  split
  · next hnone => simp [places?, hnone]
  · next hsome =>
      have hends : ∀ c ∈ (cs.dropWhile isDigit).head?, isDigit c = false :=
          fun c hc => by
        simpa [Option.mem_def.mp hc] using List.head?_dropWhile_not isDigit cs
      have hpoint :=
        places?_point negative whole (fun c hc => List.mem_takeWhile_imp hc)
          hsome hends
      rwa [List.takeWhile_append_dropWhile] at hpoint

/-- The whole part is a lone zero or begins with another digit: nothing else
can begin a numeral, and no zero stands in front of others. -/
theorem unsigned?_cons (negative : Bool) (c : Char) (cs : List Char) :
    unsigned? negative (c :: cs)
      = if c = '0' then places? negative 0 cs
        else if isDigit c then
          places? negative (valueOf 0 ((c :: cs).takeWhile isDigit))
            ((c :: cs).dropWhile isDigit)
        else none := by
  unfold unsigned?
  split <;> simp_all

/-- A numeral is read with or without a minus, and only then by its digits. -/
theorem numeral?_cons {c : Char} (hminus : c ≠ '-') (cs : List Char) :
    numeral? (c :: cs) = unsigned? false (c :: cs) :=
      numeral?_signed false hminus cs

/-- What begins with anything else is no numeral. -/
theorem numeral?_eq_none {c : Char} (hminus : c ≠ '-')
    (hdigit : isDigit c = false) (cs : List Char) :
    numeral? (c :: cs) = none := by
  cases h : numeral? (c :: cs) with
  | none => rfl
  | some r =>
      obtain ⟨d, tail, heq, hd⟩ := numeral?_head h
      cases heq
      simp_all

-- ============================================================ the steps

variable {α : Type}

/-- Reads on from the first character that is no blank. -/
def afterBlanks? (read? : Char → List Char → Option (α × List Char))
    (cs : List Char) :
    Option (α × List Char) :=
  match skip cs with
  | [] => none
  | c :: rest => read? c rest

/-- Reads the rest of a word. -/
def word? (word : List Char) (t : Tree) (cs : List Char) :
    Option (Tree × List Char) :=
  if cs.take word.length = word then some (t, cs.drop word.length) else none

/-- Reads what stands behind an opening bracket. -/
def bracketed? (close : Char) (make : List α → Tree)
    (inner? : List Char → Option (List α × List Char)) :
    List Char → Option (Tree × List Char) :=
  afterBlanks? fun c rest =>
    if c = close then some (make [], rest)
    else (inner? (c :: rest)).map fun r => (make r.1, r.2)

/-- Reads what stands behind an item: the end, or a comma and the others. -/
def further? (close : Char) (others? : List Char → Option (List α × List Char))
    (item : α) :
    List Char → Option (List α × List Char) :=
  afterBlanks? fun c rest =>
    if c = close then some ([item], rest)
    else if c = ',' then (others? rest).map fun r => (item :: r.1, r.2)
    else none

/-- Reads a key and its colon. -/
def key? : List Char → Option (Units × List Char) :=
  afterBlanks? fun c rest =>
    if c = '"' then
      (quoted? [] rest).bind fun r =>
        afterBlanks? (fun c rest => if c = ':' then some (r.1, rest) else none)
          r.2
    else none

/-- Reads a value behind its first character. -/
def begun? (fuel : Nat) (c : Char) (cs : List Char) :
    Option (Tree × List Char) :=
  if c = 'n' then word? ['u', 'l', 'l'] .null cs
  else if c = 't' then word? ['r', 'u', 'e'] (.bool true) cs
  else if c = 'f' then word? ['a', 'l', 's', 'e'] (.bool false) cs
  else if c = '"' then (quoted? [] cs).map fun r => (.string r.1, r.2)
  else if c = '[' then bracketed? ']' .array (items? fuel) cs
  else if c = '\x7b' then bracketed? '\x7d' .object (members? fuel) cs
  else (numeral? (c :: cs)).map fun r => (.number r.1, r.2)

/-- A word is read only where it stands in full. -/
theorem word?_eq_none {word cs : List Char} {t : Tree}
    (h : ∀ more, cs ≠ word ++ more) :
    word? word t cs = none := by
  refine if_neg fun htake => ?_
  have hcs := List.take_append_drop word.length cs
  rw [htake] at hcs
  exact h _ hcs.symm

/-- There is no value without a character that begins it. The three readers of
values, items and members all stop at the end of a text, whatever fuel is left.
-/
private theorem value?_nil (fuel : Nat) {cs : List Char} (h : skip cs = []) :
    value? fuel cs = none := by
  cases fuel with
  | zero => rw [value?]
  | succ fuel =>
      rw [value?, h]
      rfl

private theorem items?_nil (fuel : Nat) : items? fuel [] = none := by
  cases fuel with
  | zero => rw [items?]
  | succ fuel => rw [items?, value?_nil fuel rfl]

private theorem members?_nil (fuel : Nat) : members? fuel [] = none := by
  cases fuel with
  | zero => rw [members?]
  | succ fuel =>
      rw [members?]
      rfl

/-- A value is told by its first character. In this form one step of the reader
is a reader made of smaller ones, which is how laws about it are shown. -/
theorem value?_succ (fuel : Nat) (cs : List Char) :
    value? (fuel + 1) cs = afterBlanks? (begun? fuel) cs := by
  rw [afterBlanks?]
  cases hcs : skip cs with
  | nil => exact value?_nil _ hcs
  | cons c rest =>
      rw [value?, hcs]
      simp only
      unfold begun?
      split
      · simp_all [word?]
      · simp_all [word?]
      · simp_all [word?]
      · next heq =>
          cases heq
          simp only [Char.reduceEq, if_false, if_true]
          cases quoted? [] rest <;> rfl
      · next heq =>
          cases heq
          simp only [bracketed?, afterBlanks?, Char.reduceEq, if_false,
            if_true]
          cases skip rest with
          | nil => simp [items?_nil]
          | cons d more =>
              by_cases hd : d = ']'
              · simp [hd]
              · cases hitems : items? fuel (d :: more) <;> simp [hd, hitems]
      · next heq =>
          cases heq
          simp only [bracketed?, afterBlanks?, Char.reduceEq, if_false,
            if_true]
          cases skip rest with
          | nil => simp [members?_nil]
          | cons d more =>
              by_cases hd : d = '\x7d'
              · simp [hd]
              · cases hmembers : members? fuel (d :: more)
                  <;> simp [hd, hmembers]
      · next hnull htrue hfalse hquote hlist hobject =>
          -- a number, or a letter that begins none of the three words
          have hn : numeral? ('n' :: rest) = none :=
            numeral?_eq_none (by decide) rfl rest
          have ht : numeral? ('t' :: rest) = none :=
            numeral?_eq_none (by decide) rfl rest
          have hf : numeral? ('f' :: rest) = none :=
            numeral?_eq_none (by decide) rfl rest
          by_cases h : c = 'n' ∨ c = 't' ∨ c = 'f'
          · rcases h with rfl | rfl | rfl
            · rw [hn, if_pos rfl, word?_eq_none fun more heq =>
                hnull more (by simp [heq])]
            · rw [ht, if_neg (by decide), if_pos rfl,
                word?_eq_none fun more heq => htrue more (by simp [heq])]
            · rw [hf, if_neg (by decide), if_neg (by decide), if_pos rfl,
                word?_eq_none fun more heq => hfalse more (by simp [heq])]
          · cases hnumeral : numeral? (c :: rest) <;> simp_all

/-- Items are an item and what stands behind it. -/
theorem items?_succ (fuel : Nat) (cs : List Char) :
    items? (fuel + 1) cs = (value? fuel cs).bind fun r =>
      further? ']' (items? fuel) r.1 r.2 := by
  rw [items?]
  cases value? fuel cs with
  | none => rfl
  | some r =>
      simp only [Option.bind_some, further?, afterBlanks?]
      cases skip r.2 with
      | nil => rfl
      | cons c rest =>
          split
          · simp_all
          · next heq =>
              cases heq
              cases hitems : items? fuel rest <;> simp [hitems]
          · simp_all

/-- Members are a key, its value, and what stands behind them. -/
theorem members?_succ (fuel : Nat) (cs : List Char) :
    members? (fuel + 1) cs = (key? cs).bind fun k =>
      (value? fuel k.2).bind fun r =>
      further? '\x7d' (members? fuel) (k.1, r.1) r.2 := by
  rw [members?, key?, afterBlanks?]
  cases skip cs with
  | nil => rfl
  | cons c rest =>
      by_cases hc : c = '"'
      · subst hc
        simp only [if_true]
        cases quoted? [] rest with
        | none => rfl
        | some k =>
            simp only [Option.bind_some, afterBlanks?]
            cases skip k.2 with
            | nil => rfl
            | cons d rest =>
                by_cases hd : d = ':'
                · subst hd
                  simp only [if_true, Option.bind_some]
                  cases value? fuel rest with
                  | none => rfl
                  | some r =>
                      simp only [Option.bind_some, further?, afterBlanks?]
                      cases skip r.2 with
                      | nil => rfl
                      | cons c rest =>
                          split
                          · simp_all
                          · next heq =>
                              cases heq
                              cases hmembers : members? fuel rest
                                <;> simp [hmembers]
                          · simp_all
                · simp [hd]
      · simp [hc]

end KnnOracle.Json
