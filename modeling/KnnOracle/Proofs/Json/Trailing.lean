/-
A blank behind a text changes nothing.

The reader takes no part of a blank behind what it reads (`Overlooks`),
and a whole text may end in blanks: so a text and the text with one more
blank behind it say the same (`parseChars?_append`). This does not follow
from the first law alone, for the longer text is read with more fuel.

# Fuel

Every reader leaves less than it was given (`Takes`). Lists and objects
are therefore nested no deeper than the text is long, and two units of
fuel a character are enough: more of it changes nothing (`value?_fuel`).
The two runs are compared reader by reader, on shorter and shorter texts
(`Agree`).
-/
import KnnOracle.Proofs.Json.Steps

namespace KnnOracle.Json

open Decimal

variable {α β : Type} {w : Char}

-- ======================================================= a blank behind

/-- The same result, with one more character left. -/
def leaving (w : Char) (r : α × List Char) : α × List Char := (r.1, r.2 ++ [w])

/-- A reader that takes no part of the character behind what it is given. -/
def Overlooks (w : Char) (read? : List Char → Option (α × List Char)) : Prop :=
  ∀ cs, read? (cs ++ [w]) = (read? cs).map (leaving w)

/-- The readers are put together of smaller ones, and so is the proof. What is
made of a result does not change what was read for it. -/
private theorem overlooks_map {read? : List Char → Option (α × List Char)}
    (h : Overlooks w read?) (f : α → β) :
    Overlooks w fun cs => (read? cs).map fun r => (f r.1, r.2) := by
  intro cs
  simp only [h cs, Option.map_map]
  rfl

/-- Two readers one after the other overlook what each of them does. -/
private theorem overlooks_bind {read? : List Char → Option (α × List Char)}
    {next? : α → List Char → Option (β × List Char)} (h : Overlooks w read?)
    (hnext : ∀ a, Overlooks w (next? a)) :
    Overlooks w fun cs => (read? cs).bind fun r => next? r.1 r.2 := by
  intro cs
  simp only [h cs]
  cases read? cs with
  | none => rfl
  | some r => exact hnext r.1 r.2

private theorem eq_of_isBlank (hw : isBlank w = true) :
    w = ' ' ∨ w = '\n' ∨ w = '\t' ∨ w = '\r' := by
  simpa [isBlank, or_assoc] using hw

/-- A blank ends a numeral, so that nothing about a number changes if one
stands behind it. -/
private theorem ends_of_isBlank (hw : isBlank w = true) :
    isDigit w = false ∧ w ≠ '.' ∧ w ≠ 'e' ∧ w ≠ 'E' := by
  rcases eq_of_isBlank hw with rfl | rfl | rfl | rfl <;> exact ⟨rfl, by decide⟩

/-- Digits are read up to the first character that is none, and a character
behind them that is none stays where it is. -/
private theorem digits_append (hdigit : isDigit w = false) (cs : List Char) :
    (cs ++ [w]).takeWhile isDigit = cs.takeWhile isDigit ∧
      (cs ++ [w]).dropWhile isDigit = cs.dropWhile isDigit ++ [w] := by
  induction cs with
  | nil => simp [hdigit]
  | cons c cs ih =>
      by_cases hc : isDigit c = true
      · simpa [hc] using ih
      · simp [hc]

section

variable (hw : isBlank w = true)

include hw

-- Numerals: digits end at the blank.

/-- The readers of the parts of a numeral come next, from its end to its
beginning. Each of them reads digits and looks at one more character. -/
private theorem overlooks_power? (negative : Bool) :
    Overlooks w (power? negative) := by
  intro cs
  obtain ⟨htake, hdrop⟩ := digits_append (ends_of_isBlank hw).1 cs
  simp only [power?, htake, hdrop]
  by_cases hnone : cs.takeWhile isDigit = []
  · simp [hnone]
  · simp [hnone, leaving]

private theorem overlooks_exponent? : Overlooks w exponent? := by
  intro cs
  cases cs with
  | nil => rcases eq_of_isBlank hw with rfl | rfl | rfl | rfl <;> rfl
  | cons c cs =>
      by_cases hminus : c = '-'
      · subst hminus
        exact overlooks_power? hw true cs
      by_cases hplus : c = '+'
      · subst hplus
        exact overlooks_power? hw false cs
      · rw [List.cons_append, exponent?_unsigned hminus hplus,
          exponent?_unsigned hminus hplus]
        exact overlooks_power? hw false (c :: cs)

private theorem overlooks_powered? (n : Numeral) :
    Overlooks w (powered? n) := by
  intro cs
  cases cs with
  | nil => exact powered?_ends (ends_cons (ends_of_isBlank hw))
  | cons c cs =>
      rw [List.cons_append, powered?, powered?, overlooks_exponent? hw]
      split
      · cases exponent? cs <;> rfl
      · rfl

private theorem overlooks_places? (negative : Bool) (whole : Nat) :
    Overlooks w (places? negative whole) := by
  intro cs
  obtain ⟨hdigit, hpoint, -⟩ := ends_of_isBlank hw
  by_cases h : ∀ c ∈ cs.head?, c ≠ '.'
  · have h' : ∀ c ∈ (cs ++ [w]).head?, c ≠ '.' := by
      cases cs with
      | nil => simpa using hpoint
      | cons c cs => exact h
    rw [places?_whole h, places?_whole h']
    exact overlooks_powered? hw _ cs
  · obtain ⟨tail, rfl⟩ := eq_point_cons h
    obtain ⟨htake, hdrop⟩ := digits_append hdigit tail
    rw [List.cons_append, places?_places, places?_places, htake, hdrop]
    split
    · rfl
    · exact overlooks_powered? hw _ _

private theorem overlooks_unsigned? (negative : Bool) :
    Overlooks w (unsigned? negative) := by
  intro cs
  cases cs with
  | nil => rcases eq_of_isBlank hw with rfl | rfl | rfl | rfl <;> rfl
  | cons c cs =>
      obtain ⟨htake, hdrop⟩ := digits_append (ends_of_isBlank hw).1 (c :: cs)
      rw [List.cons_append] at htake hdrop ⊢
      rw [unsigned?_cons, unsigned?_cons, htake, hdrop]
      split_ifs
      · exact overlooks_places? hw negative 0 cs
      · exact overlooks_places? hw negative _ _
      · rfl

/-- A blank is no part of a number, nor of its sign, its places or its
exponent. -/
private theorem overlooks_numeral? : Overlooks w numeral? := by
  intro cs
  cases cs with
  | nil => rcases eq_of_isBlank hw with rfl | rfl | rfl | rfl <;> rfl
  | cons c cs =>
      by_cases hminus : c = '-'
      · subst hminus
        exact overlooks_unsigned? hw true cs
      · rw [List.cons_append, numeral?_cons hminus, numeral?_cons hminus]
        exact overlooks_unsigned? hw false (c :: cs)

/-- An open string stays open: a blank ends neither it nor an escape. -/
theorem overlooks_quoted? (acc : Units) : Overlooks w (quoted? acc) := by
  intro cs
  have hescape : escapeUnit? w = none ∧ w ≠ 'u' ∧ hexValue? w = none := by
    rcases eq_of_isBlank hw with rfl | rfl | rfl | rfl <;>
      exact ⟨rfl, by decide, rfl⟩
  obtain ⟨hletter, hnamed, hdigit⟩ := hescape
  fun_induction quoted? acc cs with
  | case1 acc =>
      rcases eq_of_isBlank hw with rfl | rfl | rfl | rfl <;> simp [quoted?]
  | case2 acc rest => simp [quoted?, leaving]
  | case3 acc a b c d rest unit h ih => simp [quoted?, h, ih]
  | case4 acc a b c d rest h => simp [quoted?, h]
  | case5 acc e rest hshort unit h ih =>
      have he : e ≠ 'u' := by
        rintro rfl
        cases h
      rw [List.cons_append, List.cons_append, quoted?_letter he, h]
      exact ih
  | case6 acc e rest hshort h =>
      by_cases he : e = 'u'
      · subst he
        -- three digits at most: the blank may be a fourth, but it is none
        refine quoted?_unnamed (fun a b c d more hmore => ?_) acc
        have hlast : d = w := by
          rcases rest with _ | ⟨a', _ | ⟨b', _ | ⟨c', _ | ⟨d', more'⟩⟩⟩⟩
          · simp at hmore
          · simp at hmore
          · simp at hmore
          · simp_all
          · exact (hshort a' b' c' d' more' rfl rfl).elim
        rw [hexUnit?, hlast, hdigit]
        simp
      · rw [List.cons_append, List.cons_append, quoted?_letter he, h]
        rfl
  | case7 acc c rest hquote hlong hpair h =>
      rcases h with h | rfl
      · exact quoted?_control h acc _
      · obtain rfl : rest = [] := by
          cases rest with
          | nil => rfl
          | cons e rest => exact (hpair e rest rfl rfl).elim
        have hpair := quoted?_letter hnamed acc []
        rw [hletter] at hpair
        exact hpair
  | case8 acc c rest hquote hlong hpair h ih =>
      obtain ⟨hcontrol, hslash⟩ := not_or.mp h
      rw [List.cons_append, quoted?_plain hquote hslash (by omega), ih]

/-- A text of blanks is skipped with the blank behind it, and any other text
keeps the blank at its end. -/
private theorem skip_append (cs : List Char) :
    skip (cs ++ [w]) = if skip cs = [] then [] else skip cs ++ [w] := by
  induction cs with
  | nil => simp [skip, hw]
  | cons c cs ih =>
      by_cases hc : isBlank c = true
      · simpa [skip, hc] using ih
      · simp [skip, hc]

/-- Blanks in front of what is read do not matter: if there is nothing else,
there is nothing to read, with the blank and without. -/
private theorem overlooks_afterBlanks?
    {read? : Char → List Char → Option (α × List Char)}
    (h : ∀ c, Overlooks w (read? c)) : Overlooks w (afterBlanks? read?) := by
  intro cs
  rw [afterBlanks?, afterBlanks?, skip_append hw]
  cases skip cs with
  | nil => rfl
  | cons c rest => exact h c rest

omit hw in
private theorem overlooks_word? {word : List Char} (hword : w ∉ word)
    (t : Tree) :
    Overlooks w (word? word t) := by
  intro cs
  by_cases h : word <+: cs
  · obtain ⟨more, rfl⟩ := h
    simp [word?, leaving]
  · have h' : ∀ more, cs ++ [w] ≠ word ++ more := by
      intro more heq
      rcases List.eq_nil_or_concat more with rfl | ⟨init, last, rfl⟩
      · rw [List.append_nil] at heq
        exact hword (heq ▸ by simp)
      · rw [List.concat_eq_append, ← List.append_assoc] at heq
        exact h ⟨init, (List.append_inj_left' heq rfl).symm⟩
    rw [word?_eq_none h', word?_eq_none fun more heq => h ⟨more, heq.symm⟩]
    rfl

/-- What opens a list or an object is followed by what closes it or by the
first of its parts. The blank is neither. -/
private theorem overlooks_bracketed? (close : Char) (make : List α → Tree)
    {inner? : List Char → Option (List α × List Char)}
    (h : Overlooks w inner?) :
    Overlooks w (bracketed? close make inner?) := by
  refine overlooks_afterBlanks? hw fun c rest => ?_
  by_cases hc : c = close
  · simp [hc, leaving]
  · simpa [hc] using overlooks_map h make (c :: rest)

/-- Behind a part there has to be a comma or a closing bracket, and the blank
is neither. -/
private theorem overlooks_further? (close : Char) (item : α)
    {others? : List Char → Option (List α × List Char)}
    (h : Overlooks w others?) :
    Overlooks w (further? close others? item) := by
  refine overlooks_afterBlanks? hw fun c rest => ?_
  by_cases hc : c = close
  · simp [hc, leaving]
  by_cases hcomma : c = ','
  · simpa only [if_neg hc, if_pos hcomma]
      using overlooks_map h (item :: ·) rest
  · simp [hc, hcomma]

private theorem overlooks_key? : Overlooks w key? := by
  have hcolon : ∀ units : Units, Overlooks w
      (afterBlanks? fun c rest => if c = ':' then some (units, rest)
        else none) := fun units =>
    overlooks_afterBlanks? hw fun c rest => by
      by_cases hc : c = ':' <;> simp [hc, leaving]
  refine overlooks_afterBlanks? hw fun c rest => ?_
  by_cases hc : c = '"'
  · simpa [hc] using overlooks_bind (overlooks_quoted? hw []) hcolon rest
  · simp [hc]

/-- Whatever a value begins with, the reader that is chosen for it overlooks
the blank, if those of its parts do. -/
private theorem overlooks_begun? {fuel : Nat}
    (hitems : Overlooks w (items? fuel))
    (hmembers : Overlooks w (members? fuel)) (c : Char) :
    Overlooks w (begun? fuel c) := by
  have hwords : w ∉ ['u', 'l', 'l'] ∧ w ∉ ['r', 'u', 'e'] ∧
      w ∉ ['a', 'l', 's', 'e'] := by
    rcases eq_of_isBlank hw with rfl | rfl | rfl | rfl <;> decide
  obtain ⟨hnull, htrue, hfalse⟩ := hwords
  intro cs
  unfold begun?
  split_ifs
  · exact overlooks_word? hnull _ cs
  · exact overlooks_word? htrue _ cs
  · exact overlooks_word? hfalse _ cs
  · exact overlooks_map (overlooks_quoted? hw []) _ cs
  · exact overlooks_bracketed? hw _ _ hitems cs
  · exact overlooks_bracketed? hw _ _ hmembers cs
  · exact overlooks_map (overlooks_numeral? hw) _ (c :: cs)

end

mutual

/-- A value takes no part of a blank behind the text. The three lemmas are one
induction on the fuel. -/
theorem overlooks_value? (hw : isBlank w = true) :
    ∀ fuel, Overlooks w (value? fuel)
  | 0 => fun _ => by
      rw [value?, value?]
      rfl
  | fuel + 1 => fun cs => by
      have hbegun :=
        overlooks_begun? hw (overlooks_items? hw fuel)
          (overlooks_members? hw fuel)
      rw [value?_succ, value?_succ]
      exact overlooks_afterBlanks? hw hbegun cs

theorem overlooks_items? (hw : isBlank w = true) :
    ∀ fuel, Overlooks w (items? fuel)
  | 0 => fun _ => by
      rw [items?, items?]
      rfl
  | fuel + 1 => fun cs => by
      rw [items?_succ, items?_succ]
      exact overlooks_bind (overlooks_value? hw fuel)
        (fun item => overlooks_further? hw ']' item (overlooks_items? hw fuel))
          cs

theorem overlooks_members? (hw : isBlank w = true) :
    ∀ fuel, Overlooks w (members? fuel)
  | 0 => fun _ => by
      rw [members?, members?]
      rfl
  | fuel + 1 => fun cs => by
      have hmember : ∀ key, Overlooks w fun cs =>
          (value? fuel cs).bind fun r =>
          further? '\x7d' (members? fuel) (key, r.1) r.2 := fun key =>
        overlooks_bind (overlooks_value? hw fuel) fun value =>
          overlooks_further? hw '\x7d' (key, value)
            (overlooks_members? hw fuel)
      rw [members?_succ, members?_succ]
      exact overlooks_bind (overlooks_key? hw) hmember cs

end

-- ======================================================== what is taken

/-- A reader that takes at least `k` characters of what it is given. -/
def Takes (k : Nat) (read? : List Char → Option (α × List Char)) : Prop :=
  ∀ cs, ∀ r ∈ read? cs, r.2.length + k ≤ cs.length

/-- The second law is about lengths: a reader that takes some characters of
what it is given takes fewer, too. -/
private theorem takes_of_le {j k : Nat}
    {read? : List Char → Option (α × List Char)} (h : Takes k read?)
    (hjk : j ≤ k) : Takes j read? := fun cs r hr => by
  have hrest := h cs r hr
  omega

theorem takes_cons {k : Nat} {read? : List Char → Option (α × List Char)}
    (h : Takes (k + 1) read?) (c : Char) : Takes k fun cs => read? (c :: cs) :=
  fun cs r hr => by
  have hrest := h (c :: cs) r hr
  rw [List.length_cons] at hrest
  omega

private theorem takes_some (a : α) : Takes 0 fun cs => some (a, cs) :=
  fun cs r hr => by
  cases hr
  exact Nat.le_refl _

private theorem takes_map {k : Nat}
    {read? : List Char → Option (α × List Char)} (h : Takes k read?)
    (f : α → β) : Takes k fun cs => (read? cs).map fun r => (f r.1, r.2) := by
  intro cs r hr
  obtain ⟨a, ha, rfl⟩ := Option.mem_map.mp hr
  exact h cs a ha

/-- Two readers one after the other take what they take together, so each part
that takes something makes the whole take something. -/
private theorem takes_bind {j k : Nat}
    {read? : List Char → Option (α × List Char)}
    {next? : α → List Char → Option (β × List Char)} (h : Takes j read?)
    (hnext : ∀ a, Takes k (next? a)) :
    Takes (j + k) fun cs => (read? cs).bind fun r => next? r.1 r.2 := by
  intro cs r hr
  obtain ⟨a, ha, hr⟩ := Option.mem_bind_iff.mp hr
  have hfirst := h cs a ha
  have hsecond := hnext a.1 a.2 r hr
  omega

private theorem length_skip_le (cs : List Char) :
    (skip cs).length ≤ cs.length :=
  (List.dropWhile_sublist _).length_le

/-- A reader behind blanks takes at least the character that it chooses by. -/
private theorem takes_afterBlanks? {k : Nat}
    {read? : Char → List Char → Option (α × List Char)}
    (h : ∀ c, Takes k (read? c)) : Takes (k + 1) (afterBlanks? read?) := by
  intro cs r hr
  have hskip := length_skip_le cs
  rw [afterBlanks?] at hr
  split at hr
  · cases hr
  · next c rest heq =>
      have hrest := h c rest r hr
      rw [heq, List.length_cons] at hskip
      omega

/-- Some readers take a character or more (a power, a string, a value), and
others may take none, because what they read can be missing. -/
private theorem takes_power? (negative : Bool) :
    Takes 1 (power? negative) := by
  intro cs r hr
  simp only [power?] at hr
  split at hr
  · cases hr
  · next hne =>
      cases hr
      have hlength :=
        congrArg List.length (List.takeWhile_append_dropWhile (p :=
        isDigit) (l := cs))
      have hpos := List.length_pos_iff.mpr hne
      rw [List.length_append] at hlength
      show (cs.dropWhile isDigit).length + 1 ≤ cs.length
      omega

private theorem takes_exponent? : Takes 1 exponent? := by
  intro cs r hr
  cases cs with
  | nil => cases hr
  | cons c cs =>
      by_cases hminus : c = '-'
      · subst hminus
        exact Nat.le_succ_of_le (takes_power? true cs r hr)
      by_cases hplus : c = '+'
      · subst hplus
        exact Nat.le_succ_of_le (takes_power? false cs r hr)
      · rw [exponent?_unsigned hminus hplus] at hr
        exact takes_power? false (c :: cs) r hr

private theorem takes_powered? (n : Numeral) : Takes 0 (powered? n) := by
  intro cs r hr
  cases cs with
  | nil => exact takes_some n [] r hr
  | cons c cs =>
      rw [powered?] at hr
      split at hr
      · obtain ⟨p, hp, rfl⟩ := Option.mem_map.mp hr
        have hrest := takes_exponent? cs p hp
        show p.2.length ≤ cs.length + 1
        omega
      · exact takes_some n (c :: cs) r hr

private theorem takes_places? (negative : Bool) (whole : Nat) :
    Takes 0 (places? negative whole) := by
  intro cs r hr
  by_cases h : ∀ c ∈ cs.head?, c ≠ '.'
  · rw [places?_whole h] at hr
    exact takes_powered? _ cs r hr
  · obtain ⟨tail, rfl⟩ := eq_point_cons h
    rw [places?_places] at hr
    split at hr
    · cases hr
    · have hrest := takes_powered? _ _ r hr
      have hdrop := (List.dropWhile_sublist (l := tail) isDigit).length_le
      rw [List.length_cons]
      omega

private theorem takes_unsigned? (negative : Bool) :
    Takes 1 (unsigned? negative) := by
  intro cs r hr
  cases cs with
  | nil => cases hr
  | cons c cs =>
      rw [unsigned?_cons] at hr
      split at hr
      · exact Nat.succ_le_succ (takes_places? negative 0 cs r hr)
      split at hr
      · next hdigit =>
          have hrest := takes_places? negative _ _ r hr
          have hdrop := (List.dropWhile_sublist (l := cs) isDigit).length_le
          rw [List.dropWhile_cons_of_pos hdigit] at hrest
          rw [List.length_cons]
          omega
      · cases hr

/-- A number takes a character at least, so that a list of numbers comes to its
end. -/
private theorem takes_numeral? : Takes 1 numeral? := by
  intro cs r hr
  cases cs with
  | nil => cases hr
  | cons c cs =>
      by_cases hminus : c = '-'
      · subst hminus
        exact Nat.le_succ_of_le (takes_unsigned? true cs r hr)
      · rw [numeral?_cons hminus] at hr
        exact takes_unsigned? false (c :: cs) r hr

private theorem takes_quoted? (acc : Units) : Takes 1 (quoted? acc) := by
  intro cs r hr
  fun_induction quoted? acc cs with
  | case1 | case4 | case6 | case7 => cases hr
  | case2 =>
      cases hr
      exact Nat.le_refl _
  | case3 acc a b c d rest unit h ih =>
      have hrest := ih hr
      simp only [List.length_cons]
      omega
  | case5 acc e rest hshort unit h ih =>
      have hrest := ih hr
      simp only [List.length_cons]
      omega
  | case8 acc c rest hquote hlong hpair h ih => exact Nat.le_succ_of_le (ih hr)

private theorem takes_word? (word : List Char) (t : Tree) :
    Takes 0 (word? word t) := by
  intro cs r hr
  unfold word? at hr
  split at hr
  · cases hr
    simp
  · cases hr

private theorem takes_bracketed? (close : Char) (make : List α → Tree)
    {inner? : List Char → Option (List α × List Char)} (h : Takes 1 inner?) :
    Takes 1 (bracketed? close make inner?) := by
  refine takes_afterBlanks? fun c rest r hr => ?_
  split at hr
  · exact takes_some _ rest r hr
  · exact takes_map (takes_cons h c) make rest r hr

/-- What stands behind a part takes one character at least: a comma, or what
closes the list. -/
private theorem takes_further? (close : Char) (item : α)
    {others? : List Char → Option (List α × List Char)} (h : Takes 0 others?) :
    Takes 1 (further? close others? item) := by
  refine takes_afterBlanks? fun c rest r hr => ?_
  split at hr
  · exact takes_some _ rest r hr
  split at hr
  · exact takes_map h (item :: ·) rest r hr
  · cases hr

private theorem takes_key? : Takes 1 key? := by
  have hcolon : ∀ units : Units, Takes (0 + 1)
      (afterBlanks? fun c rest => if c = ':' then some (units, rest)
        else none) := fun units =>
    takes_afterBlanks? fun c rest r hr => by
      split at hr
      · exact takes_some units rest r hr
      · cases hr
  refine takes_afterBlanks? fun c rest r hr => ?_
  split at hr
  · exact takes_of_le (takes_bind (takes_quoted? []) hcolon) (Nat.zero_le _)
      rest r hr
  · cases hr

/-- The first character of a value was taken already when the reader of the
rest is chosen. -/
private theorem takes_begun? {fuel : Nat} (hitems : Takes 1 (items? fuel))
    (hmembers : Takes 1 (members? fuel)) (c : Char) :
    Takes 0 (begun? fuel c) := by
  intro cs r hr
  unfold begun? at hr
  split_ifs at hr
  · exact takes_word? _ _ cs r hr
  · exact takes_word? _ _ cs r hr
  · exact takes_word? _ _ cs r hr
  · exact takes_of_le (takes_map (takes_quoted? []) _) (Nat.zero_le 1) cs r hr
  · exact takes_of_le (takes_bracketed? _ _ hitems) (Nat.zero_le 1) cs r hr
  · exact takes_of_le (takes_bracketed? _ _ hmembers) (Nat.zero_le 1) cs r hr
  · exact takes_map (takes_cons takes_numeral? c) _ cs r hr

mutual

/-- A value takes something, so that what is behind it is read with fuel to
spare. The three lemmas are one induction on the fuel. -/
theorem takes_value? : ∀ fuel, Takes 1 (value? fuel)
  | 0 => fun _ _ hr => by
      rw [value?] at hr
      cases hr
  | fuel + 1 => fun cs r hr => by
      have hbegun := takes_begun? (takes_items? fuel) (takes_members? fuel)
      rw [value?_succ] at hr
      exact takes_afterBlanks? hbegun cs r hr

theorem takes_items? : ∀ fuel, Takes 1 (items? fuel)
  | 0 => fun _ _ hr => by
      rw [items?] at hr
      cases hr
  | fuel + 1 => fun cs r hr => by
      have hothers := takes_of_le (takes_items? fuel) (Nat.zero_le 1)
      have hitem :=
        takes_bind (takes_value? fuel) fun item =>
        takes_further? ']' item hothers
      rw [items?_succ] at hr
      exact takes_of_le hitem (Nat.le_add_right 1 1) cs r hr

theorem takes_members? : ∀ fuel, Takes 1 (members? fuel)
  | 0 => fun _ _ hr => by
      rw [members?] at hr
      cases hr
  | fuel + 1 => fun cs r hr => by
      have hothers := takes_of_le (takes_members? fuel) (Nat.zero_le 1)
      have hmember : ∀ key, Takes (1 + 1) fun cs =>
          (value? fuel cs).bind fun r =>
          further? '\x7d' (members? fuel) (key, r.1) r.2 := fun key =>
        takes_bind (takes_value? fuel) fun value =>
          takes_further? '\x7d' (key, value) hothers
      rw [members?_succ] at hr
      exact takes_of_le (takes_bind takes_key? hmember)
        (Nat.le_add_right 1 2) cs r hr

end

-- ================================================================= fuel

/-- Two readers that agree on texts shorter than `n`. -/
def Agree (n : Nat) (read? read?' : List Char → Option (α × List Char)) :
    Prop :=
  ∀ cs, cs.length < n → read? cs = read?' cs

/-- Two readers that agree on shorter texts agree where one more character is
taken first. This is what the induction on the length of a text goes by. -/
private theorem afterBlanks?_congr {n : Nat}
    {read? read?' : Char → List Char → Option (α × List Char)}
    (h : ∀ c, ∀ rest : List Char, rest.length + 1 < n →
      read? c rest = read?' c rest) :
    Agree n (afterBlanks? read?) (afterBlanks? read?') := by
  intro cs hcs
  have hskip := length_skip_le cs
  unfold afterBlanks?
  split
  · rfl
  · next c rest heq =>
      rw [heq, List.length_cons] at hskip
      exact h c rest (by omega)

private theorem bracketed?_congr {n : Nat} {close : Char}
    {make : List α → Tree}
    {inner? inner?' : List Char → Option (List α × List Char)}
    (h : Agree n inner? inner?') :
    Agree n (bracketed? close make inner?)
      (bracketed? close make inner?') := by
  refine afterBlanks?_congr fun c rest hrest => ?_
  rw [h (c :: rest) hrest]

/-- Readers of what follows that agree on shorter texts agree on what follows
an item, since the comma is taken before it. -/
private theorem further?_congr {n : Nat} {close : Char} {item : α}
    {others? others?' : List Char → Option (List α × List Char)}
    (h : Agree n others? others?') :
    Agree (n + 1) (further? close others? item)
      (further? close others?' item) := by
  refine afterBlanks?_congr fun c rest hrest => ?_
  rw [h rest (by omega)]

/-- With the same items and members two readers read the same values, whatever
fuel each of them has. -/
private theorem begun?_congr {n fuel fuel' : Nat}
    (hitems : Agree n (items? fuel) (items? fuel'))
    (hmembers : Agree n (members? fuel) (members? fuel')) (c : Char) :
    Agree n (begun? fuel c) (begun? fuel' c) := by
  intro cs hcs
  unfold begun?
  rw [bracketed?_congr hitems cs hcs, bracketed?_congr hmembers cs hcs]

mutual

/-- More fuel than a value needs changes nothing. A text and a longer one are
therefore read alike, although each is given fuel by its length. -/
theorem value?_fuel :
    ∀ (fuel : Nat) (cs : List Char), 2 * cs.length + 1 ≤ fuel →
    value? (fuel + 1) cs = value? fuel cs
  | 0, _, h => absurd h (by omega)
  | fuel + 1, cs, h => by
      have hitems : Agree cs.length (items? (fuel + 1)) (items? fuel) :=
        fun more hmore =>
        items?_fuel fuel more (by omega)
      have hmembers : Agree cs.length (members? (fuel + 1)) (members? fuel) :=
        fun more hmore =>
        members?_fuel fuel more (by omega)
      rw [value?_succ, value?_succ]
      refine afterBlanks?_congr (fun c rest hrest => ?_) cs
        (Nat.lt_succ_self _)
      exact begun?_congr hitems hmembers c rest (by omega)

theorem items?_fuel :
    ∀ (fuel : Nat) (cs : List Char), 2 * cs.length + 2 ≤ fuel →
    items? (fuel + 1) cs = items? fuel cs
  | 0, _, h => absurd h (by omega)
  | fuel + 1, cs, h => by
      have hothers : Agree cs.length (items? (fuel + 1)) (items? fuel) :=
        fun more hmore =>
        items?_fuel fuel more (by omega)
      rw [items?_succ, items?_succ, value?_fuel fuel cs (by omega)]
      refine Option.bind_congr fun r hr => ?_
      have hrest := takes_value? fuel cs r hr
      exact further?_congr hothers r.2 (by omega)

theorem members?_fuel :
    ∀ (fuel : Nat) (cs : List Char), 2 * cs.length + 2 ≤ fuel →
    members? (fuel + 1) cs = members? fuel cs
  | 0, _, h => absurd h (by omega)
  | fuel + 1, cs, h => by
      have hothers : Agree cs.length (members? (fuel + 1)) (members? fuel) :=
        fun more hmore =>
        members?_fuel fuel more (by omega)
      rw [members?_succ, members?_succ]
      refine Option.bind_congr fun k hk => ?_
      have hkey := takes_key? cs k hk
      rw [value?_fuel fuel k.2 (by omega)]
      refine Option.bind_congr fun r hr => ?_
      have hrest := takes_value? fuel k.2 r hr
      exact further?_congr hothers r.2 (by omega)

end

-- ============================================================ whole texts

/-- A blank behind a text changes nothing. -/
theorem parseChars?_append (hw : isBlank w = true) (cs : List Char) :
    Tree.parseChars? (cs ++ [w]) = Tree.parseChars? cs := by
  have hfuel : value? (2 * (cs ++ [w]).length + 2) cs
      = value? (2 * cs.length + 2) cs := by
    rw [List.length_append, List.length_singleton, Nat.mul_add]
    rw [value?_fuel _ cs (by omega), value?_fuel _ cs (by omega)]
  rw [Tree.parseChars?, Tree.parseChars?, overlooks_value? hw, hfuel]
  cases value? (2 * cs.length + 2) cs with
  | none => rfl
  | some r =>
      simp only [Option.map_some, leaving, skip_append hw]
      by_cases hr : skip r.2 = [] <;> simp [hr]

/-- A value is read from a line whether or not the line kept its carriage
return. -/
theorem decode?_return (decoder : Tree → Option α) (text : String) :
    decode? decoder (text ++ "\r") = decode? decoder text := by
  have htext : (text ++ "\r").toList = text.toList ++ ['\r'] :=
    String.toList_append
  rw [decode?, decode?, Tree.parse?, Tree.parse?, htext,
    parseChars?_append rfl]

end KnnOracle.Json
