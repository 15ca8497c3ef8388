/-
Numerals come back as they were written.

A written number is a sign, digits, and for a number with a fraction a
point with more digits or an exponent. What follows a number in a text is
a comma, a bracket or nothing, which ends it (`Ends`). The reader then
stops where the digits stop, so every part is read as the number its
digits name.

A whole number is read as just that (`numeral?_integer`). A number with a
fraction is written in one of five layouts, all of the same decimal; the
numeral that is read has its value (`numeral?_compact`), and since the
decimal is the shortest one, the number comes back (`float?_compactNumeral`).
-/
import Mathlib
import KnnOracle.Json.Decode
import KnnOracle.Proofs.Decimal.Shortest

namespace KnnOracle.Json

open Decimal

-- =============================================================== digits

/-- A text that cannot go on a number. -/
def Ends (rest : List Char) : Prop :=
  ∀ c ∈ rest.head?, isDigit c = false ∧ c ≠ '.' ∧ c ≠ 'e' ∧ c ≠ 'E'

theorem ends_nil : Ends [] := fun _ h => by cases h

/-- One look at the next character is enough to see that a numeral ended. -/
theorem ends_cons {c : Char} {rest : List Char}
    (h : isDigit c = false ∧ c ≠ '.' ∧ c ≠ 'e' ∧ c ≠ 'E') : Ends (c :: rest) :=
  fun _ hc => by
  cases hc
  exact h

/-- A run of digits ends where no digit follows. -/
theorem span_digits {ds rest : List Char} (hds : ∀ c ∈ ds, isDigit c = true)
    (hrest : ∀ c ∈ rest.head?, isDigit c = false) :
    (ds ++ rest).takeWhile isDigit = ds ∧
      (ds ++ rest).dropWhile isDigit = rest := by
  rw [List.takeWhile_append_of_pos hds, List.dropWhile_append_of_pos hds]
  cases rest with
  | nil => simp
  | cons c rest =>
      have hc := hrest c rfl
      simp [hc]

/-- Digits are added up from the left, so that a numeral can be cut anywhere:
in front of its point, and in front of zeros that were added. -/
private theorem valueOf_append (acc : Nat) (cs ds : List Char) :
    valueOf acc (cs ++ ds) = valueOf (valueOf acc cs) ds := by
  induction cs generalizing acc with
  | nil => rfl
  | cons c cs ih => exact ih _

/-- The reader of digits is that of the library, which has the law that digits
of a number stand for the number. -/
private theorem valueOf_eq_ofDigitChars (acc : Nat) (cs : List Char) :
    valueOf acc cs = Nat.ofDigitChars 10 cs acc := by
  induction cs generalizing acc with
  | nil => rfl
  | cons c cs ih =>
      rw [Nat.ofDigitChars_cons]
      exact ih (10 * acc + (c.toNat - 48))

private theorem valueOf_digitsOf (n : Nat) : valueOf 0 (digitsOf n) = n := by
  rw [valueOf_eq_ofDigitChars]
  exact Nat.ofDigitChars_ten_toDigits

/-- Zeros behind a numeral are powers of ten: this is how the writer makes up
for a scale that is positive. -/
private theorem valueOf_zeros (acc k : Nat) :
    valueOf acc (zeros k) = acc * 10 ^ k := by
  rw [valueOf_eq_ofDigitChars, zeros, Nat.ofDigitChars_replicate_zero,
    Nat.mul_comm]

/-- Whatever number is written, the reader goes on to the end of its digits. -/
theorem isDigit_digitsOf (n : Nat) : ∀ c ∈ digitsOf n, isDigit c = true := by
  intro c hc
  have h := Nat.isDigit_of_mem_toDigits (by decide) (by decide) hc
  simpa [Char.isDigit, isDigit, Char.le_def] using h

private theorem isDigit_zero : ∀ c ∈ ['0'], isDigit c = true := by
  intro c hc
  rw [List.mem_singleton.mp hc]
  rfl

theorem isDigit_zeros (k : Nat) : ∀ c ∈ zeros k, isDigit c = true := by
  intro c hc
  rw [List.eq_of_mem_replicate hc]
  rfl

/-- The digits of a positive number do not begin with a zero, which the grammar
forbids in front of other digits. -/
theorem digitsOf_eq_cons {n : Nat} (h : 0 < n) :
    ∃ d ds, digitsOf n = d :: ds ∧ d ≠ '0' := by
  induction n using Nat.strong_induction_on with
  | _ n ih =>
      unfold digitsOf
      rw [Nat.toDigits_eq_if (by decide)]
      split
      · next hlt =>
          refine ⟨_, _, rfl, fun hzero => ?_⟩
          have hvalue := Nat.toNat_digitChar_sub_48_of_lt_ten hlt
          rw [hzero] at hvalue
          have : '0'.toNat = 48 := rfl
          omega
      · next hle =>
          obtain ⟨d, ds, hds, hd⟩ := ih (n / 10) (by omega) (by omega)
          rw [digitsOf] at hds
          exact ⟨d, ds ++ _, by rw [hds]; rfl, hd⟩

-- ================================================================ parts

/-- Reads the exponent of a numeral, if it has one. -/
def powered? (n : Numeral) (cs : List Char) : Option (Numeral × List Char) :=
  match cs with
  | c :: rest =>
      if c = 'e' ∨ c = 'E' then
        (exponent? rest).map fun p =>
          (⟨n.negative, n.coefficient, n.scale + p.1, false⟩, p.2)
      else some (n, cs)
  | [] => some (n, cs)

/-- A numeral that ended has no exponent. -/
theorem powered?_ends {n : Numeral} {rest : List Char} (hrest : Ends rest) :
    powered? n rest = some (n, rest) := by
  cases rest with
  | nil => rfl
  | cons c rest =>
      obtain ⟨_, _, he, hE⟩ := hrest c rfl
      simp [powered?, he, hE]

/-- The writer gives every exponent its sign, and the sign is read. -/
private theorem exponent?_signed (power : Int) {rest : List Char}
    (hrest : Ends rest) :
    exponent?
      ((if power < 0 then ['-'] else ['+']) ++ digitsOf power.natAbs ++ rest)
      = some (power, rest) := by
  obtain ⟨htake, hdrop⟩ :=
    span_digits (isDigit_digitsOf power.natAbs) fun c hc => (hrest c hc).1
  have hne : digitsOf power.natAbs ≠ [] := Nat.toDigits_ne_nil
  have hvalue := valueOf_digitsOf power.natAbs
  by_cases h : power < 0
  · simp only [h, if_true, List.cons_append, List.nil_append, exponent?, htake,
      hdrop, hne, if_false, hvalue]
    exact congrArg (fun p => some (p, rest))
      (show -(power.natAbs : Int) = power by omega)
  · simp only [h, if_false, List.cons_append, List.nil_append, exponent?,
      htake, hdrop, hne, hvalue]
    exact congrArg (fun p => some (p, rest))
      (show (power.natAbs : Int) = power by omega)

/-- An exponent that was written moves the scale by as much, and the numeral
counts as no integer from then on. -/
private theorem powered?_exponent (n : Numeral) (power : Int)
    {rest : List Char} (hrest : Ends rest) :
    powered? n
      ('e'
        :: ((if power < 0 then ['-'] else ['+']) ++ digitsOf power.natAbs
          ++ rest))
      = some (⟨n.negative, n.coefficient, n.scale + power, false⟩, rest) := by
  simp only [powered?, exponent?_signed power hrest]
  simp

variable {negative : Bool} {whole : Nat}

/-- Without a point, the whole part is the number up to its exponent. -/
theorem places?_whole {tail : List Char} (h : ∀ c ∈ tail.head?, c ≠ '.') :
    places? negative whole tail
      = powered? ⟨negative, whole, 0, true⟩ tail := by
  cases tail with
  | nil => rfl
  | cons c tail =>
      have hpoint := h c rfl
      unfold places? powered?
      split
      · simp_all
      · by_cases hpower : c = 'e' ∨ c = 'E'
        · cases h : exponent? tail <;> simp [hpower, h]
        · simp [hpower]

/-- With a point, the digits behind it belong to the number. -/
theorem places?_point (negative : Bool) (whole : Nat) {ds tail : List Char}
    (hds : ∀ c ∈ ds, isDigit c = true) (hne : ds ≠ [])
    (htail : ∀ c ∈ tail.head?, isDigit c = false) :
    places? negative whole ('.' :: (ds ++ tail))
      = powered? ⟨negative, valueOf whole ds, -(ds.length : Int), false⟩
        tail := by
  obtain ⟨htake, hdrop⟩ := span_digits hds htail
  unfold places? powered?
  simp only [htake, hdrop, hne, if_false]
  cases tail with
  | nil => rfl
  | cons c tail =>
      by_cases hpower : c = 'e' ∨ c = 'E'
      · cases h : exponent? tail <;> simp [hpower, h]
      · simp [hpower]

/-- Reads a numeral after its sign. -/
def unsigned? (negative : Bool) (cs : List Char) :
    Option (Numeral × List Char) :=
  match cs with
  | '0' :: rest => places? negative 0 rest
  | c :: _ =>
      if isDigit c then
        places? negative (valueOf 0 (cs.takeWhile isDigit))
          (cs.dropWhile isDigit)
      else none
  | [] => none

/-- The sign is taken off first, so that what is shown of numerals without one
holds of all. -/
theorem numeral?_signed (negative : Bool) {c : Char} (hc : c ≠ '-')
    (cs : List Char) :
    numeral? ((if negative then ['-'] else []) ++ c :: cs)
      = unsigned? negative (c :: cs) := by
  cases negative with
  | true => rfl
  | false =>
      unfold numeral?
      split
      next heq =>
        split at heq
        · simp_all
        · cases heq
          rfl

/-- A sign in front leaves the rest as it is read. -/
theorem numeral?_of_unsigned? {negative : Bool} {cs : List Char}
    {r : Numeral × List Char} (h : unsigned? negative cs = some r) :
    numeral? ((if negative then ['-'] else []) ++ cs) = some r := by
  cases cs with
  | nil => cases h
  | cons c cs =>
      have hc : c ≠ '-' := fun heq => by
        rw [heq] at h
        cases h
      rw [numeral?_signed negative hc, h]

/-- Digits that do not begin with a zero are the whole part. -/
theorem unsigned?_digits {d : Char} {ds tail : List Char} (hzero : d ≠ '0')
    (hds : ∀ c ∈ d :: ds, isDigit c = true)
    (htail : ∀ c ∈ tail.head?, isDigit c = false) :
    unsigned? negative (d :: ds ++ tail)
      = places? negative (valueOf 0 (d :: ds)) tail := by
  obtain ⟨htake, hdrop⟩ := span_digits hds htail
  have hdigit := hds d (List.mem_cons_self ..)
  rw [List.cons_append] at htake hdrop ⊢
  unfold unsigned?
  split
  · simp_all
  · next c _ _ heq =>
      cases heq
      rw [if_pos hdigit, htake, hdrop]
  · simp_all

-- ============================================================== layouts

/-- The numeral of a whole number. -/
def integerNumeral (n : Int) : Numeral := ⟨decide (n < 0), n.natAbs, 0, true⟩

/-- A whole number is read as itself, without a point and so as an integer. -/
theorem numeral?_integer (n : Int) {rest : List Char} (hrest : Ends rest) :
    numeral? (integer n ++ rest) = some (integerNumeral n, rest) := by
  have hdigit : ∀ c ∈ rest.head?, isDigit c = false :=
    fun c hc => (hrest c hc).1
  have hpoint : ∀ c ∈ rest.head?, c ≠ '.' := fun c hc => (hrest c hc).2.1
  have hsigned : integer n
      = (if decide (n < 0) then ['-'] else []) ++ digitsOf n.natAbs := by
    unfold integer
    by_cases h : n < 0 <;> simp [h]
  have hvalue := valueOf_digitsOf n.natAbs
  rw [hsigned, List.append_assoc]
  apply numeral?_of_unsigned?
  by_cases h : n.natAbs = 0
  · have hzero : digitsOf n.natAbs = ['0'] := by
      rw [h]
      rfl
    rw [hzero]
    change places? _ 0 rest = _
    rw [places?_whole hpoint, powered?_ends hrest, integerNumeral, h]
  · obtain ⟨d, ds, hds, hne⟩ := digitsOf_eq_cons (Nat.pos_of_ne_zero h)
    have hall := isDigit_digitsOf n.natAbs
    rw [hds] at hall hvalue ⊢
    rw [unsigned?_digits hne hall hdigit, places?_whole hpoint,
      powered?_ends hrest, hvalue]
    rfl

/-- A number with a fraction in one of its layouts. -/
def compactNumeral? (x : Float) : Option Numeral :=
  match Magnitude.ofFloat x with
  | .finite d =>
      if d.significand = 0 then some ⟨isNegative x, 0, -1, false⟩
      else
        let s := d.shortest .toEven
        let power := s.scale + ((digitsOf s.coefficient).length : Int) - 1
        if CompactRange.standard.leastPower ≤ power ∧
          power < CompactRange.standard.powerLimit
            ∧ 0 ≤ s.scale then
          some ⟨isNegative x, s.coefficient * 10 ^ (s.scale.toNat + 1),
            -1, false⟩
        else some ⟨isNegative x, s.coefficient, s.scale, false⟩
  | _ => none

/-- Digits, a point and digits. The layouts of written numbers below are read
by this, with zeros filled in on either side. -/
theorem unsigned?_point (negative : Bool) {d : Char} {ds es tail : List Char}
    (hzero : d ≠ '0') (hds : ∀ c ∈ d :: ds, isDigit c = true)
    (hes : ∀ c ∈ es, isDigit c = true) (hne : es ≠ [])
    (htail : ∀ c ∈ tail.head?, isDigit c = false) :
    unsigned? negative (d :: ds ++ '.' :: (es ++ tail))
      = powered? ⟨negative, valueOf 0 (d :: ds ++ es), -(es.length : Int),
        false⟩ tail := by
  have hpoint : ∀ c ∈ ('.' :: (es ++ tail)).head?, isDigit c = false :=
      fun c hc => by
    cases hc
    rfl
  rw [unsigned?_digits hzero hds hpoint, places?_point _ _ hes hne htail,
    valueOf_append]

variable {c : Nat} {rest : List Char}

/-- The zeros. -/
theorem unsigned?_zero (hrest : Ends rest) :
    unsigned? negative (['0', '.', '0'] ++ rest)
      = some (⟨negative, 0, -1, false⟩, rest) := by
  have hpoint := places?_point negative 0 isDigit_zero (List.cons_ne_nil _ _)
    fun c hc => (hrest c hc).1
  rw [powered?_ends hrest] at hpoint
  exact hpoint

/-- All positions, and a zero behind the point. -/
theorem unsigned?_whole (hc : 0 < c) (k : Nat) (hrest : Ends rest) :
    unsigned? negative (digitsOf c ++ zeros k ++ ['.', '0'] ++ rest)
      = some (⟨negative, c * 10 ^ (k + 1), -1, false⟩, rest) := by
  obtain ⟨d, ds, hds, hne⟩ := digitsOf_eq_cons hc
  have hall : ∀ c ∈ d :: (ds ++ zeros k), isDigit c = true := by
    rw [← List.cons_append, ← hds]
    exact List.forall_mem_append.mpr ⟨isDigit_digitsOf c, isDigit_zeros k⟩
  have hvalue : valueOf 0 (d :: (ds ++ zeros k) ++ ['0'])
      = c * 10 ^ (k + 1) := by
    rw [← List.cons_append, ← hds, valueOf_append, valueOf_append,
      valueOf_digitsOf, valueOf_zeros]
    change 10 * (c * 10 ^ k) + 0 = _
    ring
  have hpoint :=
    unsigned?_point negative hne hall isDigit_zero (List.cons_ne_nil _ _)
    fun c hc => (hrest c hc).1
  rw [hvalue, powered?_ends hrest] at hpoint
  rw [hds]
  simpa using hpoint

/-- Positions on both sides of the point. -/
theorem unsigned?_split (negative : Bool) (hc : 0 < c) {places : Nat}
    (hpos : 0 < places) (hlt : places < (digitsOf c).length)
    (hrest : Ends rest) :
    unsigned? negative ((digitsOf c).take ((digitsOf c).length - places)
        ++ '.' :: (digitsOf c).drop ((digitsOf c).length - places) ++ rest)
      = some (⟨negative, c, -(places : Int), false⟩, rest) := by
  generalize ht : (digitsOf c).length - places = t
  have hlength : ((digitsOf c).drop t).length = places := by
    rw [List.length_drop]
    omega
  have hdrop : (digitsOf c).drop t ≠ [] := fun h => by
    rw [h] at hlength
    exact hpos.ne hlength
  have htake := List.take_append_drop t (digitsOf c)
  obtain ⟨d, ds, hds, hne⟩ := digitsOf_eq_cons hc
  obtain ⟨es, hes⟩ : ∃ es, (digitsOf c).take t = d :: es := by
    obtain ⟨u, rfl⟩ : ∃ u, t = u + 1 := ⟨t - 1, by omega⟩
    exact ⟨ds.take u, by rw [hds]; rfl⟩
  have hfront : ∀ c ∈ d :: es, isDigit c = true := fun x hx =>
    isDigit_digitsOf c x (List.mem_of_mem_take (hes ▸ hx))
  have hback : ∀ x ∈ (digitsOf c).drop t, isDigit x = true := fun x hx =>
    isDigit_digitsOf c x (List.mem_of_mem_drop hx)
  have hpoint := unsigned?_point negative hne hfront hback hdrop
    fun c hc => (hrest c hc).1
  rw [← hes, htake, valueOf_digitsOf, hlength, powered?_ends hrest] at hpoint
  simpa using hpoint

/-- Positions behind the point only. -/
theorem unsigned?_places (negative : Bool) (c : Nat) {places : Nat}
    (hle : (digitsOf c).length ≤ places) (hrest : Ends rest) :
    unsigned? negative
      ('0' :: '.' :: zeros (places - (digitsOf c).length) ++ digitsOf c
        ++ rest)
      = some (⟨negative, c, -(places : Int), false⟩, rest) := by
  generalize hes : zeros (places - (digitsOf c).length) ++ digitsOf c = es
  have hall : ∀ c ∈ es, isDigit c = true := by
    rw [← hes]
    exact List.forall_mem_append.mpr ⟨isDigit_zeros _, isDigit_digitsOf c⟩
  have hvalue : valueOf 0 es = c := by
    rw [← hes, valueOf_append, valueOf_zeros, Nat.zero_mul, valueOf_digitsOf]
  have hlength : es.length = places := by
    rw [← hes, List.length_append, zeros, List.length_replicate]
    omega
  have hne : es ≠ [] := fun h => by
    rw [h] at hes
    exact Nat.toDigits_ne_nil (List.append_eq_nil_iff.mp hes).2
  have hpoint := places?_point negative 0 hall hne
    fun c hc => (hrest c hc).1
  rw [hvalue, hlength, powered?_ends hrest] at hpoint
  rw [← hpoint]
  simp [← hes, unsigned?]

/-- One digit, the others behind a point, and an exponent. -/
theorem unsigned?_exponential (hc : 0 < c) (scale : Int) (hrest : Ends rest) :
    unsigned? negative (exponential (digitsOf c) scale true ++ rest)
      = some (⟨negative, c, scale, false⟩, rest) := by
  obtain ⟨d, ds, hds, hne⟩ := digitsOf_eq_cons hc
  have hall := isDigit_digitsOf c
  have hvalue := valueOf_digitsOf c
  rw [hds] at hall hvalue ⊢
  have hmark : ∀ cs : List Char, ∀ c ∈ ('e' :: cs).head?, isDigit c = false ∧
      c ≠ '.' :=
    fun cs c hc => by
      cases hc
      exact ⟨rfl, by decide⟩
  generalize hpower : scale + ((d :: ds).length : Int) - 1 = power
  generalize htail :
    'e'
      :: ((if power < 0 then ['-'] else ['+']) ++ digitsOf power.natAbs
        ++ rest)
    = tail
  have hdigit : ∀ c ∈ tail.head?, isDigit c = false := fun x hx => by
    rw [← htail] at hx
    exact (hmark _ x hx).1
  have hpoint : ∀ c ∈ tail.head?, c ≠ '.' := fun x hx => by
    rw [← htail] at hx
    exact (hmark _ x hx).2
  cases ds with
  | nil =>
      have htext : exponential [d] scale true ++ rest = [d] ++ tail := by
        simp only [exponential, hpower, ← htail]
        simp
      have hscale : 0 + power = scale := by
        rw [List.length_singleton] at hpower
        omega
      rw [htext, unsigned?_digits hne hall hdigit, places?_whole hpoint,
        ← htail, powered?_exponent _ _ hrest, hvalue, hscale]
  | cons e es =>
      have htext : exponential (d :: e :: es) scale true ++ rest
          = [d] ++ '.' :: (e :: es ++ tail) := by
        simp only [exponential, hpower, ← htail]
        simp
      have hscale : -((e :: es).length : Int) + power = scale := by
        rw [List.length_cons] at hpower
        omega
      have hfirst : ∀ c ∈ [d], isDigit c = true := fun x hx =>
        hall x (List.mem_of_mem_take (i := 1) hx)
      have hothers : ∀ c ∈ e :: es, isDigit c = true := fun x hx =>
        hall x (List.mem_cons_of_mem d hx)
      rw [htext, unsigned?_point negative hne hfirst hothers
        (List.cons_ne_nil _ _) hdigit, ← htail, powered?_exponent _ _ hrest,
        hscale]
      rw [List.singleton_append, hvalue]

-- ================================================ numbers with a fraction

/-- A number with a fraction is read as the decimal it is written as. Which
layout was chosen does not show. -/
theorem numeral?_compact {x : Float} {cs : List Char}
    (h : compact? x = some cs) (hrest : Ends rest) :
    ∃ n, compactNumeral? x = some n ∧
      numeral? (cs ++ rest) = some (n, rest) := by
  unfold compact? at h
  unfold compactNumeral?
  split at h
  · cases h
  · cases h
  next d hd =>
  rw [hd]
  dsimp only at h ⊢
  split at h
  · next hzero =>
      cases h
      refine ⟨_, if_pos hzero, ?_⟩
      rw [signed, List.append_assoc]
      apply numeral?_of_unsigned?
      exact unsigned?_zero hrest
  next hne =>
  obtain ⟨hc, -⟩ := shortest_attracts (Nat.pos_of_ne_zero hne) .toEven
  generalize d.shortest .toEven = s at h hc ⊢
  rw [if_neg hne]
  split at h
  · next hrange =>
      cases h
      rw [signed, List.append_assoc]
      by_cases hscale : 0 ≤ s.scale
      · refine ⟨_, if_pos ⟨hrange.1, hrange.2, hscale⟩,
          numeral?_of_unsigned? ?_⟩
        rw [if_pos hscale, positional, if_pos hscale]
        exact unsigned?_whole hc _ hrest
      · refine ⟨_, if_neg (fun hall => hscale hall.2.2),
          numeral?_of_unsigned? ?_⟩
        have hplaces : -(((-s.scale).toNat : Nat) : Int) = s.scale := by omega
        rw [if_neg hscale, positional, if_neg hscale]
        dsimp only
        split
        · next hlong =>
            have h := unsigned?_split (isNegative x) hc (by omega) hlong hrest
            rwa [hplaces] at h
        · next hshort =>
            have h := unsigned?_places (isNegative x) s.coefficient
              (Nat.le_of_not_lt hshort) hrest
            rwa [hplaces] at h
  · next hrange =>
      cases h
      rw [signed, List.append_assoc]
      exact ⟨_, if_neg (fun hall => hrange ⟨hall.1, hall.2.1⟩),
        numeral?_of_unsigned? (unsigned?_exponential hc s.scale hrest)⟩

/-- A number that has no text has no numeral either: it is written as null on
both ways. -/
theorem compactNumeral?_eq_none {x : Float} (h : compact? x = none) :
    compactNumeral? x = none := by
  unfold compact? at h
  unfold compactNumeral?
  cases hm : Magnitude.ofFloat x with
  | nan => rfl
  | infinite => rfl
  | finite d =>
      rw [hm] at h
      dsimp only at h
      split at h
      · cases h
      · split at h <;> simp at h

private theorem isInf_of_isFinite {x : Float} (h : x.isFinite = true) :
    x.isInf = false := by
  change x.toModel.unpack.isFinite = true at h
  change x.toModel.unpack.isInf = false
  cases hx : x.toModel.unpack with
  | infinity s =>
      rw [hx] at h
      cases h
  | notANumber => rfl
  | zero s => rfl
  | finite s m e hpos => rfl

/-- A finite number comes back from its numeral with every bit, since the
decimal lies in its interval. -/
theorem float?_compactNumeral {x : Float} (h : x.isFinite = true) :
    ∃ n, compactNumeral? x = some n ∧ n.integral = false ∧
      n.float? = some x := by
  obtain ⟨d, hd⟩ := finite_of_isFinite h
  have hfloat : ∀ c scale, signedNearest (isNegative x) c scale = x →
      (⟨isNegative x, c, scale, false⟩ : Numeral).float? = some x :=
        fun c scale hsame => by
    unfold Numeral.float?
    dsimp only
    rw [hsame, isInf_of_isFinite h]
    rfl
  unfold compactNumeral?
  rw [hd]
  dsimp only
  by_cases hzero : d.significand = 0
  · rw [if_pos hzero]
    exact ⟨_, rfl, rfl, hfloat _ _ (signedNearest_zero hd hzero _)⟩
  · have hpos := Nat.pos_of_ne_zero hzero
    obtain ⟨hc, hx⟩ := shortest_attracts hpos .toEven
    rw [if_neg hzero]
    split
    · next hscale =>
        refine ⟨_, rfl, rfl, hfloat
          _ _ (signedNearest_eq hd hpos (by positivity) ?_)⟩
        have hvalue : (((d.shortest .toEven).coefficient
              * 10 ^ ((d.shortest .toEven).scale.toNat + 1) : Nat) : ℚ)
                * 10 ^ (-1 : ℤ)
            = (d.shortest .toEven).coefficient
              * 10 ^ (d.shortest .toEven).scale := by
          have hsplit : (d.shortest .toEven).scale
              = (d.shortest .toEven).scale.toNat := by omega
          rw [hsplit, zpow_natCast, zpow_neg_one, Int.toNat_natCast]
          push_cast
          ring
        rwa [hvalue]
    · exact ⟨_, rfl, rfl, hfloat _ _ (signedNearest_shortest hd hpos .toEven)⟩

end KnnOracle.Json
