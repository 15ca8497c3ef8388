/-
What the stream of a corpus tells.

A stream holds no lengths and no separators, and yet it can be told apart
from the stream of any other corpus. The dimension stands in front, and it
says how long a record is; so the rest is blocks of one size, and what is
in a record, its id and its components, is blocks of eight bytes. Laid end
to end, blocks of one size are told apart again (`eq_of_flatMap_eq`).

`stream_settles` says that two corpora have one stream exactly if they
have one dimension and the same records in the same order, and lists in
what they differ otherwise (`Differ`). Components are compared by their
bits. Without the rule that all records have the dimension it would not
hold: two records of no components and one record of one are as long.
-/
import Mathlib
import KnnOracle.Corpus.Fingerprint
import KnnOracle.Proofs.Corpus.Making

namespace KnnOracle

-- =============================================================== blocks

/-- Blocks of one size, laid end to end, are told apart again. It is used
twice: for the components of a record, and for the records of a corpus. -/
theorem eq_of_flatMap_eq {α β : Type} {f : α → List β} (size : Nat)
    (hsize : 0 < size) {as bs : List α} (has : ∀ a ∈ as, (f a).length = size)
    (hbs : ∀ b ∈ bs, (f b).length = size)
    (hinj : ∀ a ∈ as, ∀ b ∈ bs, f a = f b → a = b)
    (h : as.flatMap f = bs.flatMap f) :
    as = bs := by
  induction as generalizing bs with
  | nil =>
      cases bs with
      | nil => rfl
      | cons b bs =>
          have hblock := hbs b List.mem_cons_self
          have hnil := congrArg List.length h
          simp only [List.flatMap_nil, List.flatMap_cons, List.length_nil,
            List.length_append]
            at hnil
          omega
  | cons a as ih =>
      have hblock := has a List.mem_cons_self
      cases bs with
      | nil =>
          have hnil := congrArg List.length h
          simp only [List.flatMap_nil, List.flatMap_cons, List.length_nil,
            List.length_append]
            at hnil
          omega
      | cons b bs =>
          rw [List.flatMap_cons, List.flatMap_cons] at h
          obtain ⟨hhead, htail⟩ :=
            List.append_inj h (hblock.trans (hbs b List.mem_cons_self).symm)
          have hfirst := hinj a List.mem_cons_self b List.mem_cons_self hhead
          have hrest := ih (fun x hx => has x (List.mem_cons_of_mem a hx))
            (fun y hy => hbs y (List.mem_cons_of_mem b hy))
            (fun x hx y hy => hinj x (List.mem_cons_of_mem a hx) y
              (List.mem_cons_of_mem b hy))
            htail
          rw [hfirst, hrest]

-- ================================================================ words

/-- A word takes eight bytes, so that the parts of a stream are found by
counting. -/
private theorem length_wordBytes (w : UInt64) : (wordBytes w).length = 8 :=
  length_littleEndian 8 w.toNat

/-- Numbers of 64 bits are told apart by their eight bytes. -/
theorem littleEndian_inj {m n : Nat} (hm : m < 2 ^ 64) (hn : n < 2 ^ 64)
    (h : littleEndian 8 m = littleEndian 8 n) : m = n := by
  have hm' : m < 256 ^ 8 := by simpa using hm
  have hn' : n < 256 ^ 8 := by simpa using hn
  rw [← ofLittleEndian_littleEndian hm', h, ofLittleEndian_littleEndian hn']

private theorem wordBytes_inj {w v : UInt64} (h : wordBytes w = wordBytes v) :
    w = v := by
  apply UInt64.toNat_inj.mp
  exact littleEndian_inj w.toNat_lt v.toNat_lt h

-- ============================================================== records

namespace Record

/-- A record with its length in front takes up what that length says, so that
its end is known from its beginning. -/
private theorem length_stream (r : Record) :
    r.stream.length = 8 + 8 * r.dimension := by
  have hvalues : (r.values.flatMap fun v => wordBytes v.toBits).length
      = 8 * r.dimension := by
    simp [List.length_flatMap, length_wordBytes, dimension, Nat.mul_comm]
  rw [stream, List.length_append, length_wordBytes, hvalues]

/-- A record is told by its bytes: the id comes first and has a fixed size,
the length comes next, and the components make up the rest. -/
theorem stream_inj {r s : Record} (h : r.stream = s.stream) : r = s := by
  obtain ⟨hid, hvalues⟩ := List.append_inj h
    ((length_wordBytes r.id.value).trans (length_wordBytes s.id.value).symm)
  have hsame : r.values = s.values := by
    refine eq_of_flatMap_eq 8 (by decide) ?_ ?_ ?_ hvalues
    · exact fun v _ => length_wordBytes v.toBits
    · exact fun v _ => length_wordBytes v.toBits
    · exact fun v _ w _ hbytes => Float.toBits_inj.mp (wordBytes_inj hbytes)
  cases r
  cases s
  rw [Record.mk.injEq]
  exact ⟨congrArg RecordId.mk (wordBytes_inj hid), hsame⟩

end Record

-- ============================================================== corpora

namespace Corpus

/-- In what two corpora can differ. -/
inductive Differ (dimension dimension' : Nat)
    (records records' : List Record) : Prop where
  | dimension (h : dimension ≠ dimension')
  | count (h : records.length ≠ records'.length)
  | id (i : Nat) (r r' : Record) (hr : records[i]? = some r)
      (hr' : records'[i]? = some r')
      (h : r.id ≠ r'.id)
  | component (i j : Nat) (r r' : Record) (x x' : Float)
      (hr : records[i]? = some r)
      (hr' : records'[i]? = some r') (hx : r.values[j]? = some x)
      (hx' : r'.values[j]? = some x')
      (h : x.toBits ≠ x'.toBits)

theorem exists_getElem?_ne {α : Type} {as bs : List α}
    (hlength : as.length = bs.length) (h : as ≠ bs) :
    ∃ (i : Nat) (a b : α), as[i]? = some a ∧ bs[i]? = some b ∧ a ≠ b := by
  by_contra hnone
  push Not at hnone
  apply h
  apply List.ext_getElem hlength
  intro i ha hb
  exact hnone i as[i] bs[i] (List.getElem?_eq_getElem ha)
    (List.getElem?_eq_getElem hb)

/-- Records of one dimension that are not equal have other ids, or a component
of other bits. Equality is that of bits here, not that of numbers. -/
theorem differ_of_ne {dimension : Nat} {records records' : List Record}
    (hrecords : ∀ r ∈ records, r.dimension = dimension)
    (hrecords' : ∀ r ∈ records', r.dimension = dimension)
    (h : records ≠ records') :
    Differ dimension dimension records records' := by
  by_cases hlength : records.length = records'.length
  · obtain ⟨i, r, r', hr, hr', hne⟩ := exists_getElem?_ne hlength h
    by_cases hid : r.id = r'.id
    · have hvalues : r.values ≠ r'.values := by
        intro hsame
        apply hne
        cases r
        cases r'
        rw [Record.mk.injEq]
        exact ⟨hid, hsame⟩
      have hcount : r.values.length = r'.values.length :=
        (hrecords r (List.mem_of_getElem? hr)).trans
          (hrecords' r' (List.mem_of_getElem? hr')).symm
      obtain ⟨j, x, x', hx, hx', hbits⟩ := exists_getElem?_ne hcount hvalues
      exact .component i j r r' x x' hr hr' hx hx'
        (mt Float.toBits_inj.mp hbits)
    · exact .id i r r' hr hr' hid
  · exact .count hlength

/-- What differs in anything is not the same. So the specification of a
difference does not hold of equal corpora. -/
theorem Differ.not_same {dimension dimension' : Nat}
    {records records' : List Record}
    (h : Differ dimension dimension' records records') :
    ¬(dimension = dimension' ∧ records = records') := by
  rintro ⟨rfl, rfl⟩
  cases h with
  | dimension h => exact h rfl
  | count h => exact h rfl
  | id i r r' hr hr' h =>
      rw [hr] at hr'
      cases hr'
      exact h rfl
  | component i j r r' x x' hr hr' hx hx' h =>
      rw [hr] at hr'
      cases hr'
      rw [hx] at hx'
      cases hx'
      exact h rfl

/-- The stream tells the dimension and the records in their order. All
records of a corpus have one size, which is why no count is needed. -/
theorem stream_inj {c c' : Corpus} (hc : c.dimension < 2 ^ 64)
    (hc' : c'.dimension < 2 ^ 64) (h : c.stream = c'.stream) :
    c.dimension = c'.dimension ∧ c.records = c'.records := by
  obtain ⟨hfront, hrest⟩ := List.append_inj h
    ((length_littleEndian 8 c.dimension).trans
      (length_littleEndian 8 c'.dimension).symm)
  have hdimension := littleEndian_inj hc hc' hfront
  refine ⟨hdimension, ?_⟩
  refine eq_of_flatMap_eq (8 + 8 * c.dimension) (by omega) ?_ ?_ ?_ hrest
  · intro r hr
    rw [Record.length_stream, c.dimension_eq r hr]
  · intro r hr
    rw [Record.length_stream, c'.dimension_eq r hr, hdimension]
  · exact fun r _ s _ => Record.stream_inj

/-- Two corpora have one stream exactly if they have one dimension and the
same records in the same order; and otherwise they differ in the
dimension, the number of records, an id, or a bit of a component. A
dimension is a number of 64 bits. -/
theorem stream_settles {dimension dimension' : Nat}
    {records records' : List Record} {c c' : Corpus} (hd : dimension < 2 ^ 64)
    (hd' : dimension' < 2 ^ 64) (hmake : make? dimension records = .ok c)
    (hmake' : make? dimension' records' = .ok c') :
    (c.stream = c'.stream ↔ dimension = dimension' ∧ records = records') ∧
    (c.stream ≠ c'.stream ↔ Differ dimension dimension' records records') := by
  obtain ⟨rfl, rfl⟩ := records_of_make? hmake
  obtain ⟨rfl, rfl⟩ := records_of_make? hmake'
  have hsame : c.stream = c'.stream ↔
      c.dimension = c'.dimension ∧ c.records = c'.records := by
    constructor
    · exact stream_inj hd hd'
    · rintro ⟨hdimension, hrecords⟩
      rw [stream, stream, hdimension, hrecords]
  refine ⟨hsame, ?_⟩
  rw [Ne, hsame]
  constructor
  · intro hne
    by_cases hdimension : c.dimension = c'.dimension
    · have hrecords : c.records ≠ c'.records :=
        fun heq => hne ⟨hdimension, heq⟩
      have hdimension' : ∀ r ∈ c'.records, r.dimension = c.dimension :=
        fun r hr =>
        (c'.dimension_eq r hr).trans hdimension.symm
      have hdiffer := differ_of_ne c.dimension_eq hdimension' hrecords
      rw [hdimension] at hdiffer ⊢
      exact hdiffer
    · exact .dimension hdimension
  · exact Differ.not_same

/-- One bit is enough: the two zeros are equal as numbers and give two
streams. -/
theorem stream_settles_of_zeros :
    ∃ c c', make? 1 [⟨⟨7⟩, [0.0]⟩] = .ok c ∧ make? 1 [⟨⟨7⟩, [-0.0]⟩] = .ok c' ∧
      c.stream ≠ c'.stream := by
  have hzero : Obeys 1 [⟨⟨7⟩, [0.0]⟩] := ⟨by simp, by simp; decide, by simp⟩
  have hnegative : Obeys 1 [⟨⟨7⟩, [-0.0]⟩] :=
    ⟨by simp, by simp; decide, by simp⟩
  obtain ⟨c, hmake⟩ := exists_make?_iff.mpr hzero
  obtain ⟨c', hmake'⟩ := exists_make?_iff.mpr hnegative
  refine ⟨c, c', hmake, hmake', ?_⟩
  apply (stream_settles (by decide) (by decide) hmake hmake').2.mpr
  exact .component 0 0 _ _ 0.0 (-0.0) rfl rfl rfl rfl (by decide)

end Corpus

end KnnOracle
