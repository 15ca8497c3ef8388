/-
Strings come back as they were written.

A string is written character by character: a quote, a backslash or a
control character as an escape, any other as itself. The reader turns
each of these back into the one code point of its character
(`quoted?_escape`), so it takes a whole written string for the code
points of that string and stops at the closing quote (`quoted?_quoted`).

Code points of characters are no halves of surrogate pairs, so text is
made of them again, character by character (`textOf?_codePoints`).
-/
import KnnOracle.Json.Decode

namespace KnnOracle.Json

/-- The code points of a string. -/
def codePoints (s : String) : Units := s.toList.map Char.toNat

-- ============================================================== escapes

private theorem hexValue?_escapeDigit :
    ∀ n < 16, hexValue? (escapeDigit n) = some n :=
  by decide

/-- The four digits of a control character name it. -/
theorem hexUnit?_escapeDigits {n : Nat} (h : n < 32) :
    hexUnit? '0' '0' (escapeDigit (n / 16)) (escapeDigit (n % 16))
      = some n := by
  have hzero : hexValue? '0' = some 0 := by decide
  have hhigh := hexValue?_escapeDigit (n / 16) (by omega)
  have hlow := hexValue?_escapeDigit (n % 16) (by omega)
  simp [hexUnit?, hzero, hhigh, hlow]
  omega

/-- A character that needs no escape is taken as it is. -/
theorem quoted?_plain {c : Char} (hquote : c ≠ '"') (hslash : c ≠ '\\')
    (h : 0x20 ≤ c.toNat) (acc : Units) (rest : List Char) :
    quoted? acc (c :: rest) = quoted? (c.toNat :: acc) rest := by
  have hcontrol : ¬(c.toNat < 0x20 ∨ c = '\\') := by
    simp [hslash]
    omega
  rw [quoted?]
  · rw [if_neg hcontrol]
  all_goals simp_all

/-- However a character is written, its code point is read. -/
theorem quoted?_escape (acc : Units) (c : Char) (rest : List Char) :
    quoted? acc (escape c ++ rest) = quoted? (c.toNat :: acc) rest := by
  unfold escape
  split
  case h_6 hquote hslash _ _ _ =>
    split
    · next h =>
        have hc : c = Char.ofNat 0x08 := by rw [← h, Char.ofNat_toNat]
        subst hc
        rfl
    split
    · next h =>
        have hc : c = Char.ofNat 0x0C := by rw [← h, Char.ofNat_toNat]
        subst hc
        rfl
    split
    · next h => simp [quoted?, hexUnit?_escapeDigits h]
    · next h => exact quoted?_plain hquote hslash (by omega) acc rest
  all_goals rfl

/-- A written string is read up to its closing quote, since quotes inside of it
are escaped. -/
theorem quoted?_quoted (acc : Units) (cs rest : List Char) :
    quoted? acc (cs.flatMap escape ++ '"' :: rest)
      = some (acc.reverse ++ cs.map Char.toNat, rest) := by
  induction cs generalizing acc with
  | nil => simp [quoted?]
  | cons c cs ih => simp [quoted?_escape, ih]

-- ================================================================= text

/-- The units of a text are read as characters one by one, since no character
of a text is half of a pair. -/
private theorem textOf?_cons (c : Char) (units : Units) :
    textOf? (c.toNat :: units) = (textOf? units).map (c :: ·) := by
  have hvalid : c.toNat < 0xD800 ∨ 0xDFFF < c.toNat ∧ c.toNat < 0x110000 :=
    c.valid
  have hhigh : ¬(0xD800 ≤ c.toNat ∧ c.toNat < 0xDC00) := by omega
  have hlow : ¬(0xDC00 ≤ c.toNat ∧ c.toNat < 0xE000) := by omega
  rw [textOf?.eq_def]
  simp only [hhigh, hlow, if_false, Char.ofNat_toNat]

/-- The code points of a string are text. A string that is read may hold lone
surrogates and be none. -/
theorem textOf?_codePoints (s : String) :
    textOf? (codePoints s) = some s.toList := by
  unfold codePoints
  induction s.toList with
  | nil => rfl
  | cons c cs ih => simp [textOf?_cons, ih]

/-- The code points of a text are those of no other text, so that nothing is
lost between a string and the tree that stands for it. -/
theorem text?_codePoints (s : String) :
    (Tree.string (codePoints s)).text? = some s := by
  simp [Tree.text?, textOf?_codePoints]

end KnnOracle.Json
