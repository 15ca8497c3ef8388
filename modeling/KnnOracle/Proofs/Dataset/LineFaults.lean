/-
Reading lines up to the first fault.

A line by itself is no text, blank, no record, or a record (`reading`).
Reading lines goes over them in order and comes to one of two ends
(`readLines_ends`): every line is blank or a record of the right
dimension, and the records of the lines are the answer; or there is a
first line that is neither, and its fault is the answer, whatever the
lines behind it.

# Two counts

The fault of a line knows one of two numbers: which line it is, or how
many records were read before it. Lines of blanks count for the first and
not for the second. So `weave`, which puts lines between lines, moves the
first by the lines put before it and leaves the second as it was; nothing
else changes (`readLines_weave`). This needs no induction of its own: the
lines before the first faulty one are the same with and without the
blank ones, but for their number.
-/
import Mathlib
import KnnOracle.Dataset.Lines

namespace KnnOracle.JsonLines

-- ============================================================= one line

/-- What a line says by itself. -/
inductive Reading where
  | notText
  | blank
  | malformed
  | record (r : Record)

/-- What a line says to a reader of single lines. -/
def reading (reader : String → Option Record) (line : List UInt8) : Reading :=
  match textOf? line with
  | none => .notText
  | some text =>
      if Text.isBlankText text then .blank
      else
        match reader text with
        | none => .malformed
        | some r => .record r

variable (reader : String → Option Record) (dimension : Nat)

/-- The line lets the reading go on. -/
def Sound (line : List UInt8) : Prop :=
  reading reader line = .blank ∨ ∃ r, reading reader line = .record r ∧
    r.dimension = dimension

/-- The fault of the line, as line `number` behind `row` records. -/
inductive Faulty (number row : Nat) (line : List UInt8) :
    DatasetFault → Prop where
  | notText : reading reader line = .notText →
      Faulty number row line (.file .notText)
  | malformed : reading reader line = .malformed →
      Faulty number row line (.malformedLine number)
  | dimension (r : Record) : reading reader line = .record r →
      r.dimension ≠ dimension →
      Faulty number row line (.dimensionMismatch row dimension r.dimension)

/-- The record of a line, if it has one. -/
def recordOf? (line : List UInt8) : Option Record :=
  match reading reader line with
  | .record r => some r
  | _ => none

/-- The records of lines, in order. -/
def recordsOf (ls : List (List UInt8)) : List Record :=
  ls.filterMap (recordOf? reader)

variable {reader dimension}

/-- Each line either has nothing wrong with it or has a fault, so that the
first faulty line is well defined. -/
private theorem sound_or_faulty (line : List UInt8) (number row : Nat) :
    Sound reader dimension line ∨
      ∃ fault, Faulty reader dimension number row line fault := by
  cases h : reading reader line with
  | notText => exact .inr ⟨_, .notText h⟩
  | blank => exact .inl (.inl h)
  | malformed => exact .inr ⟨_, .malformed h⟩
  | record r =>
      by_cases hr : r.dimension = dimension
      · exact .inl (.inr ⟨r, h, hr⟩)
      · exact .inr ⟨_, .dimension r h hr⟩

/-- Lines all let the reading go on, or one of them is the first that does not.
With what is known of either case nothing else can come of a reading. -/
theorem sound_or_split (ls : List (List UInt8)) :
    (∀ l ∈ ls, Sound reader dimension l) ∨
      ∃ before line after, ls = before ++ line :: after ∧
        (∀ l ∈ before, Sound reader dimension l) ∧
          ¬Sound reader dimension line := by
  induction ls with
  | nil => exact .inl fun _ hl => nomatch hl
  | cons l ls ih =>
      by_cases hl : Sound reader dimension l
      · rcases ih with hall | ⟨before, line, after, rfl, hbefore, hline⟩
        · exact .inl (List.forall_mem_cons.mpr ⟨hl, hall⟩)
        · exact .inr ⟨l :: before, line, after, rfl,
            List.forall_mem_cons.mpr ⟨hl, hbefore⟩, hline⟩
      · exact .inr ⟨[], l, ls, rfl, (fun _ h => nomatch h), hl⟩

-- ============================================================ the lines

/-- What is done about the first line: it is skipped, taken or refused, and the
counters go on accordingly. -/
theorem readLines_cons (line row : Nat) (bytes : List UInt8)
    (rest : List (List UInt8)) :
    readLines reader dimension line row (bytes :: rest)
      = match reading reader bytes with
        | .notText => .error (.file .notText)
        | .blank => readLines reader dimension (line + 1) row rest
        | .malformed => .error (.malformedLine line)
        | .record r =>
            if r.dimension ≠ dimension then
              .error (.dimensionMismatch row dimension r.dimension)
            else (readLines reader dimension (line + 1) (row + 1) rest).map
              (r :: ·) := by
  rw [readLines, reading]
  cases textOf? bytes with
  | none => rfl
  | some text =>
      simp only
      by_cases hblank : Text.isBlankText text = true
      · simp only [hblank, if_true]
      · simp only [hblank, Bool.false_eq_true, if_false]
        cases reader text with
        | none => rfl
        | some r =>
            simp only
            split
            · rfl
            · cases readLines reader dimension (line + 1) (row + 1)
                rest <;> rfl

/-- Only what the lines say by themselves counts. Two files whose lines read
alike are the same to the reader. -/
theorem readLines_congr {ls ls' : List (List UInt8)}
    (h : ls.map (reading reader) = ls'.map (reading reader)) (line row : Nat) :
    readLines reader dimension line row ls
      = readLines reader dimension line row ls' := by
  induction ls generalizing ls' line row with
  | nil => rw [List.map_eq_nil_iff.mp h.symm]
  | cons l ls ih =>
      obtain ⟨l', rest, rfl, hl, hrest⟩ := List.map_eq_cons_iff.mp h.symm
      rw [readLines_cons, readLines_cons, hl]
      cases reading reader l <;> simp only [ih hrest.symm]

/-- Lines that let the reading go on give their records and are counted. This
is the step from which both ends of a reading follow. -/
theorem readLines_append {before : List (List UInt8)}
    (h : ∀ l ∈ before, Sound reader dimension l) (rest : List (List UInt8))
    (line row : Nat) :
    readLines reader dimension line row (before ++ rest)
      = (readLines reader dimension (line + before.length)
          (row + (recordsOf reader before).length) rest).map
            (recordsOf reader before ++ ·) := by
  induction before generalizing line row with
  | nil =>
      show readLines reader dimension line row rest
        = (readLines reader dimension line row rest).map ([] ++ ·)
      cases readLines reader dimension line row rest <;> rfl
  | cons l before ih =>
      obtain ⟨hl, hbefore⟩ := List.forall_mem_cons.mp h
      have hstep : line + 1 + before.length = line + (l :: before).length := by
        rw [List.length_cons]
        omega
      rw [List.cons_append, readLines_cons]
      rcases hl with hblank | ⟨r, hrecord, hdimension⟩
      · have hrecords : recordsOf reader (l :: before)
            = recordsOf reader before :=
          List.filterMap_cons_none (by rw [recordOf?, hblank])
        simp only [hblank]
        rw [ih hbefore, hstep, hrecords]
      · have hrecords : recordsOf reader (l :: before)
            = r :: recordsOf reader before :=
          List.filterMap_cons_some (by rw [recordOf?, hrecord])
        have hrow : row + 1 + (recordsOf reader before).length
            = row + (r :: recordsOf reader before).length := by
          rw [List.length_cons]
          omega
        simp only [hrecord, hdimension, ne_eq, not_true_eq_false, if_false]
        rw [ih hbefore, hstep, hrecords, hrow]
        cases readLines reader dimension (line + (l :: before).length)
          (row + (r :: recordsOf reader before).length) rest <;> rfl

/-- A faulty line ends the reading, whatever comes after it. -/
theorem readLines_faulty {line row : Nat} {bytes : List UInt8}
    {fault : DatasetFault} (h : Faulty reader dimension line row bytes fault)
    (after : List (List UInt8)) :
    readLines reader dimension line row (bytes :: after) = .error fault := by
  rw [readLines_cons]
  cases h with
  | notText h => rw [h]
  | malformed h => rw [h]
  | dimension r h hr => simp only [h, if_pos hr]

/-- Lines that all let the reading go on are read to the end. -/
theorem readLines_sound {ls : List (List UInt8)}
    (h : ∀ l ∈ ls, Sound reader dimension l) :
    readLines reader dimension 1 0 ls = .ok (recordsOf reader ls) := by
  have hread := readLines_append h [] 1 0
  rw [List.append_nil] at hread
  rw [hread, readLines]
  simp [Except.map]

/-- Otherwise lines are read up to the first faulty one, and its fault has the
numbers that the counters have reached there. -/
theorem readLines_split {before after : List (List UInt8)} {line : List UInt8}
    {fault : DatasetFault} (h : ∀ l ∈ before, Sound reader dimension l)
    (hfault : Faulty reader dimension (before.length + 1)
      (recordsOf reader before).length line fault) :
    readLines reader dimension 1 0 (before ++ line :: after)
      = .error fault := by
  rw [Nat.add_comm] at hfault
  rw [readLines_append h, Nat.zero_add, readLines_faulty hfault]
  rfl

/-- The two ends of the reading, each with what it says about the lines. Files
are judged by these. -/
theorem readLines_ends (ls : List (List UInt8)) :
    ((∀ l ∈ ls, Sound reader dimension l) ∧
        readLines reader dimension 1 0 ls = .ok (recordsOf reader ls)) ∨
      ∃ before line after fault, ls = before ++ line :: after ∧
        (∀ l ∈ before, Sound reader dimension l) ∧
        Faulty reader dimension (before.length + 1)
          (recordsOf reader before).length line fault ∧
        readLines reader dimension 1 0 ls = .error fault := by
  rcases @sound_or_split reader dimension ls with
    hall | ⟨before, line, after, rfl, hbefore, hline⟩
  · exact .inl ⟨hall, readLines_sound hall⟩
  · obtain ⟨fault, hfault⟩ := (sound_or_faulty line (before.length + 1)
      (recordsOf reader before).length).resolve_left hline
    exact .inr ⟨before, line, after, fault, rfl, hbefore, hfault,
      readLines_split hbefore hfault⟩

-- ====================================================== lines put between

variable {α β : Type}

/-- Puts the gaps before, between and behind the lines, one before each; what
is left of them goes behind the last. -/
def weave : List (List α) → List α → List α
  | [], ls => ls
  | gap :: gaps, [] => (gap :: gaps).flatten
  | gap :: gaps, l :: ls => gap ++ l :: weave gaps ls

private theorem weave_nil (gaps : List (List α)) :
    weave gaps [] = gaps.flatten := by
  cases gaps <;> rfl

/-- The lines and the gaps are all there is, so nothing is lost or made up when
they are woven together. -/
theorem weave_perm (gaps : List (List α)) (ls : List α) :
    (weave gaps ls).Perm (gaps.flatten ++ ls) := by
  induction ls generalizing gaps with
  | nil => rw [weave_nil, List.append_nil]
  | cons l ls ih =>
      cases gaps with
      | nil => exact .refl _
      | cons gap gaps =>
          rw [weave, List.flatten_cons, List.append_assoc]
          exact ((ih gaps).cons l).append_left gap |>.trans
            (List.perm_middle.symm.append_left gap)

theorem mem_weave {gaps : List (List α)} {ls : List α} {x : α} :
    x ∈ weave gaps ls ↔ (∃ gap ∈ gaps, x ∈ gap) ∨ x ∈ ls := by
  rw [(weave_perm gaps ls).mem_iff, List.mem_append, List.mem_flatten]

private theorem length_weave (gaps : List (List α)) (ls : List α) :
    (weave gaps ls).length = ls.length + gaps.flatten.length := by
  rw [(weave_perm gaps ls).length_eq, List.length_append, Nat.add_comm]

/-- What is done to every line can be done before they are woven together. -/
theorem map_weave (f : α → β) (gaps : List (List α)) (ls : List α) :
    (weave gaps ls).map f = weave (gaps.map (List.map f)) (ls.map f) := by
  induction ls generalizing gaps with
  | nil => rw [weave_nil, List.map_nil, weave_nil, List.map_flatten]
  | cons l ls ih =>
      cases gaps with
      | nil => rfl
      | cons gap gaps =>
          rw [weave, List.map_append, List.map_cons, ih]
          rfl

/-- The gaps before a line are the first of them, one more than lines before.
This gives the new number of a line. -/
theorem weave_split (gaps : List (List α)) (before : List α) (x : α)
    (after : List α) :
    weave gaps (before ++ x :: after)
      = weave (gaps.take (before.length + 1)) before
        ++ x :: weave (gaps.drop (before.length + 1)) after := by
  induction before generalizing gaps with
  | nil =>
      cases gaps with
      | nil => cases after <;> rfl
      | cons gap gaps => simp [weave]
  | cons l before ih =>
      cases gaps with
      | nil => simp [weave]
      | cons gap gaps => simp [weave, ih]

/-- A fault once lines were put before its own. -/
def moved (gaps : List (List α)) : DatasetFault → DatasetFault
  | .malformedLine line =>
      .malformedLine (line + (gaps.take line).flatten.length)
  | fault => fault

private theorem recordsOf_eq_nil {ls : List (List UInt8)}
    (h : ∀ l ∈ ls, reading reader l = .blank) :
    recordsOf reader ls = [] :=
  List.filterMap_eq_nil_iff.mpr fun l hl => by rw [recordOf?, h l hl]

/-- Lines of blanks have no records, so a woven file has those of its own
lines. -/
theorem recordsOf_weave {gaps : List (List (List UInt8))}
    (h : ∀ gap ∈ gaps, ∀ l ∈ gap, reading reader l = .blank)
    (ls : List (List UInt8)) :
    recordsOf reader (weave gaps ls) = recordsOf reader ls := by
  induction ls generalizing gaps with
  | nil =>
      rw [weave_nil]
      refine recordsOf_eq_nil fun l hl => ?_
      obtain ⟨gap, hgap, hl⟩ := List.mem_flatten.mp hl
      exact h gap hgap l hl
  | cons l ls ih =>
      cases gaps with
      | nil => rfl
      | cons gap gaps =>
          have hfirst := recordsOf_eq_nil (h gap List.mem_cons_self)
          have hrest := ih fun g hg => h g (List.mem_cons_of_mem gap hg)
          simp only [recordsOf] at hrest hfirst ⊢
          rw [weave, List.filterMap_append, hfirst, List.nil_append,
            List.filterMap_cons, List.filterMap_cons, hrest]

/-- Lines of blanks let the reading go on, so they are never the ones at
fault. -/
theorem sound_weave {gaps : List (List (List UInt8))} {ls : List (List UInt8)}
    (h : ∀ gap ∈ gaps, ∀ l ∈ gap, reading reader l = .blank)
    (hls : ∀ l ∈ ls, Sound reader dimension l) :
    ∀ l ∈ weave gaps ls, Sound reader dimension l := by
  intro l hl
  rcases mem_weave.mp hl with ⟨gap, hgap, hl⟩ | hl
  · exact .inl (h gap hgap l hl)
  · exact hls l hl

/-- The fault of a line further down: the row is the same, and the line is
counted with the blanks above it. -/
theorem Faulty.further {number row : Nat} {line : List UInt8}
    {fault : DatasetFault} (h : Faulty reader dimension number row line fault)
    (gaps : List (List α)) :
    Faulty reader dimension (number + (gaps.take number).flatten.length)
      row line
      (moved gaps fault) := by
  cases h with
  | notText h => exact .notText h
  | malformed h => exact .malformed h
  | dimension r h hr => exact .dimension r h hr

/-- Lines of blanks put between the lines of a file move the line of a fault
and nothing else. -/
theorem readLines_weave {gaps : List (List (List UInt8))}
    (h : ∀ gap ∈ gaps, ∀ l ∈ gap, reading reader l = .blank)
    (ls : List (List UInt8)) :
    readLines reader dimension 1 0 (weave gaps ls)
      = (readLines reader dimension 1 0 ls).mapError (moved gaps) := by
  rcases readLines_ends ls with
    ⟨hall, hread⟩ | ⟨before, line, after, fault, rfl, hbefore, hfault, hread⟩
  · rw [hread, readLines_sound (sound_weave h hall), recordsOf_weave h]
    rfl
  · have hfirst : ∀ gap ∈ gaps.take (before.length + 1), ∀ l ∈ gap,
        reading reader l = .blank :=
      fun gap hgap => h gap (List.mem_of_mem_take hgap)
    have hmoved := hfault.further gaps
    have hnumber : before.length + 1
        + (gaps.take (before.length + 1)).flatten.length
        = (weave (gaps.take (before.length + 1)) before).length + 1 := by
      rw [length_weave]
      omega
    rw [hnumber, ← recordsOf_weave hfirst before] at hmoved
    rw [hread, weave_split, readLines_split
      (sound_weave hfirst hbefore) hmoved]
    rfl

end KnnOracle.JsonLines
