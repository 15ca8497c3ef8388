/-
JSON in one line.

A text without blanks holds no control character: those of a string are
escaped, and nothing else of a value brings any. So no line break falls
into the text of a value, whatever its strings hold.
-/
import Mathlib
import KnnOracle.Json.Value
import KnnOracle.Proofs.Json.Numerals

namespace KnnOracle.Json

open Decimal

/-- Whether there is no control character among characters. -/
def Printable (cs : List Char) : Prop := ∀ c ∈ cs, 0x20 ≤ c.toNat

/-- The texts of values are put together of pieces, and these three laws take
the question to the pieces. -/
@[simp] theorem printable_nil : Printable [] := fun _ h => by cases h

@[simp] theorem printable_cons {c : Char} {cs : List Char} :
    Printable (c :: cs) ↔ 0x20 ≤ c.toNat ∧ Printable cs := List.forall_mem_cons

@[simp] theorem printable_append {cs ds : List Char} :
    Printable (cs ++ ds) ↔ Printable cs ∧ Printable ds :=
      List.forall_mem_append

-- ============================================================== numbers

/-- Digits stand above the control characters, which settles all numerals but
for their signs, points and exponents. -/
private theorem printable_of_isDigit {cs : List Char}
    (h : ∀ c ∈ cs, isDigit c = true) : Printable cs := by
  intro c hc
  have hdigit := h c hc
  simp only [isDigit, Bool.and_eq_true, decide_eq_true_eq] at hdigit
  exact Nat.le_trans (by decide) hdigit.1

private theorem printable_digitsOf (n : Nat) : Printable (digitsOf n) :=
  printable_of_isDigit (isDigit_digitsOf n)

private theorem printable_zeros (count : Nat) : Printable (zeros count) :=
  printable_of_isDigit (isDigit_zeros count)

/-- A number that is written out takes its digits, zeros and a point, wherever
the point comes to stand. -/
private theorem printable_positional {digits : List Char}
    (h : Printable digits) (scale : Int) :
    Printable (positional digits scale) := by
  have htake (n : Nat) : Printable (digits.take n) :=
    fun c hc => h c (List.mem_of_mem_take hc)
  have hdrop (n : Nat) : Printable (digits.drop n) :=
    fun c hc => h c (List.mem_of_mem_drop hc)
  unfold positional
  split
  · simp [h, printable_zeros]
  · dsimp only
    split <;> simp [h, htake, hdrop, printable_zeros]

/-- A number that is written with an exponent takes its digits, a point, a
letter and a sign. -/
private theorem printable_exponential {digits : List Char}
    (h : Printable digits) (scale : Int) (showPlus : Bool) :
    Printable (exponential digits scale showPlus) := by
  simp only [exponential, printable_append, printable_cons]
  refine ⟨⟨?_, by decide, ?_⟩, printable_digitsOf _⟩
  · split
    · exact printable_nil
    · exact h
    · obtain ⟨hfirst, hrest⟩ := printable_cons.mp h
      simp [hfirst, hrest]
  · split
    · simp
    · split <;> simp

/-- Whichever of the two forms the shortest text of a number takes, there is no
control character in it. -/
private theorem printable_compact? {x : Float} {cs : List Char}
    (h : compact? x = some cs) :
    Printable cs := by
  have hsigned {body : List Char} (hbody : Printable body) :
      Printable (signed x [] body) := by
    rw [signed]
    split <;> simp [hbody]
  unfold compact? at h
  split at h
  · cases h
  · cases h
  · next d _ =>
      have hdigits := printable_digitsOf (d.shortest .toEven).coefficient
      dsimp only at h
      split at h
      · cases h
        exact hsigned (by simp)
      · split at h
        · cases h
          apply hsigned
          split <;> simp [printable_positional hdigits]
        · cases h
          exact hsigned (printable_exponential hdigits _ _)

-- ============================================================== strings

private theorem printable_escapeDigit :
    ∀ n < 16, 0x20 ≤ (escapeDigit n).toNat :=
  by decide

/-- This is the heart of the matter: a control character is the only one that
is escaped because of its number, and its escape is not one. -/
private theorem printable_escape (c : Char) : Printable (escape c) := by
  unfold escape
  split
  iterate 5 simp
  split
  · simp
  split
  · simp
  split
  · next hlow =>
      simp [printable_escapeDigit (c.toNat / 16) (by omega),
        printable_escapeDigit (c.toNat % 16) (by omega)]
  · next hhigh => simpa using hhigh

/-- A string may hold any characters, and its text still takes one line, since
control characters are escaped. -/
private theorem printable_quote (s : String) : Printable (quote s) := by
  have hescaped : Printable (s.toList.flatMap escape) := by
    intro d hd
    obtain ⟨c, _, hd⟩ := List.mem_flatMap.mp hd
    exact printable_escape c d hd
  simp [quote, hescaped]

-- =============================================================== values

private theorem printable_joinWith {texts : List (List Char)}
    (h : ∀ cs ∈ texts, Printable cs) :
    Printable (joinWith [','] texts) := by
  fun_induction joinWith [','] texts with
  | case1 => exact printable_nil
  | case2 cs => exact h cs List.mem_cons_self
  | case3 cs rest _ ih =>
      have hrest := ih fun ds hds => h ds (List.mem_cons_of_mem _ hds)
      simp [h cs List.mem_cons_self, hrest]

mutual

/-- The text of a value holds no control character. A line of a file is such a
text, so line feeds separate lines and nothing else. -/
theorem printable_chars : ∀ v : Value, Printable v.chars
  | .null => by simp [Value.chars]
  | .bool true => by simp [Value.chars]
  | .bool false => by simp [Value.chars]
  | .int n => by
      rw [Value.chars, integer]
      split <;> simp [printable_digitsOf]
  | .real x => by
      rw [Value.chars, real]
      cases h : compact? x with
      | none => simp
      | some cs => exact printable_compact? h
  | .text s => by
      rw [Value.chars]
      exact printable_quote s
  | .list items => by
      have hitems := printable_joinWith (printable_listChars items)
      rw [Value.chars]
      simp [hitems]
  | .object members => by
      have hmembers := printable_joinWith (printable_memberChars members)
      rw [Value.chars]
      simp [hmembers, openBrace, closeBrace]

/-- By induction over a value together with its items and members, no part of
its text holds a control character. -/
private theorem printable_listChars :
    ∀ vs : List Value, ∀ cs ∈ listChars vs, Printable cs
  | [] => by simp [listChars]
  | v :: rest => by
      rw [listChars]
      exact List.forall_mem_cons.mpr
        ⟨printable_chars v, printable_listChars rest⟩

private theorem printable_memberChars :
    ∀ ms : List (String × Value), ∀ cs ∈ memberChars ms, Printable cs
  | [] => by simp [memberChars]
  | (key, v) :: rest => by
      rw [memberChars]
      refine List.forall_mem_cons.mpr ⟨?_, printable_memberChars rest⟩
      simp [printable_quote, printable_chars v]

end

end KnnOracle.Json
