/-
Lines of records read back.

A file of lines keeps all there is to records whose components are
finite. Three things are needed for that: the text of a record is the
line that is read again, for it holds no line break; the bytes of a line
spell its text; and the text is read as the record.
-/
import Mathlib
import KnnOracle.Dataset.Lines
import KnnOracle.Proofs.Corpus.Making
import KnnOracle.Proofs.Json.Printable
import KnnOracle.Proofs.Wire.FixedPoint

namespace KnnOracle.JsonLines

-- ================================================================ bytes

/-- The bytes of characters. -/
def bytesOf (cs : List Char) : List UInt8 := cs.flatMap String.utf8EncodeChar

/-- The bytes of an array as a list are collected from its end. This is the
invariant of that loop. -/
private theorem toList_loop (bytes : ByteArray) (i : Nat) (acc : List UInt8) :
    ByteArray.toList.loop bytes i acc
      = acc.reverse ++ bytes.data.toList.drop i := by
  fun_induction ByteArray.toList.loop bytes i acc with
  | case1 i acc h ih =>
      have hi : i < bytes.data.toList.length := by simpa using h
      rw [ih, List.drop_eq_getElem_cons hi]
      simp [ByteArray.get!, h]
  | case2 i acc h =>
      rw [List.drop_eq_nil_of_le (by simpa using h), List.append_nil]

private theorem toUTF8_ofList (cs : List Char) :
    (String.ofList cs).toUTF8.toList = bytesOf cs := by
  rw [ByteArray.toList, toList_loop, String.toUTF8_eq_toByteArray,
    String.toByteArray_ofList, List.utf8Encode, List.toList_data_toByteArray]
  rfl

/-- The bytes of a text spell it, so decoding a written line cannot fail. -/
theorem textOf?_bytesOf (cs : List Char) :
    textOf? (bytesOf cs) = some (String.ofList cs) := by
  have hbytes : (⟨(bytesOf cs).toArray⟩ : ByteArray)
      = (String.ofList cs).toByteArray := by
    apply ByteArray.ext
    rw [String.toByteArray_ofList, List.utf8Encode, List.data_toByteArray]
    rfl
  have hvalid : (String.ofList cs).toByteArray.IsValidUTF8 :=
    (String.ofList cs).isValidUTF8
  rw [textOf?, hbytes, String.fromUTF8?, dif_pos hvalid]
  exact congrArg some (String.toByteArray_inj.mp rfl)

/-- Only control characters have the bytes of control characters. In particular
no byte of a longer encoding is one. -/
theorem le_of_mem_utf8EncodeChar {c : Char} (h : 0x20 ≤ c.toNat) :
    ∀ b ∈ String.utf8EncodeChar c, 0x20 ≤ b.toNat := by
  have hvalue : c.val.toNat = c.toNat := rfl
  intro b hb
  simp only [String.utf8EncodeChar, hvalue] at hb
  -- a single byte is the character; one of several is at least 0x80
  split at hb
  · rw [List.mem_singleton.mp hb, UInt8.toNat_ofNat']
    omega
  · have hhigh : ∃ n, 0x80 ≤ n ∧ n < 0x100 ∧ b = UInt8.ofNat n := by
      split at hb
      · simp only [List.mem_cons, List.not_mem_nil, or_false] at hb
        obtain hb | hb := hb <;> exact ⟨_, by omega, by omega, hb⟩
      · split at hb
        · simp only [List.mem_cons, List.not_mem_nil, or_false] at hb
          obtain hb | hb | hb := hb <;> exact ⟨_, by omega, by omega, hb⟩
        · simp only [List.mem_cons, List.not_mem_nil, or_false] at hb
          obtain hb | hb | hb | hb := hb <;> exact ⟨_, by omega, by omega, hb⟩
    obtain ⟨n, hlow, hlimit, rfl⟩ := hhigh
    rw [UInt8.toNat_ofNat']
    omega

/-- Printable characters have no byte below a blank, so none that is a line
feed. -/
private theorem le_of_mem_bytesOf {cs : List Char} (h : Json.Printable cs) :
    ∀ b ∈ bytesOf cs, 0x20 ≤ b.toNat := by
  intro b hb
  obtain ⟨c, hc, hb⟩ := List.mem_flatMap.mp hb
  exact le_of_mem_utf8EncodeChar (h c hc) b hb

-- ================================================================ lines

/-- A line feed behind every line tells the lines apart again, as long as none
is inside of a line. -/
theorem lines_ended {ls : List (List UInt8)} (h : ∀ l ∈ ls, lineFeed ∉ l) :
    lines (ls.flatMap (· ++ [lineFeed])) = ls.map dropReturn := by
  have hfeed : ∀ l ∈ ls, ∀ b ∈ l, (b == lineFeed) = false := fun l hl b hb =>
    beq_eq_false_iff_ne.mpr fun heq => h l hl (heq ▸ hb)
  have hpieces :=
    @pieces_flatMap _ (· == lineFeed) lineFeed (beq_self_eq_true lineFeed)
      ls hfeed
  unfold lines
  simp only [hpieces, List.dropLast_concat, List.getLast?_concat]

/-- Lines without control characters have no carriage return to lose, so they
are read as they were written. -/
theorem lines_flatMap {ls : List (List UInt8)}
    (h : ∀ l ∈ ls, ∀ b ∈ l, 0x20 ≤ b.toNat) :
    lines (ls.flatMap (· ++ [lineFeed])) = ls := by
  have hreturn : ∀ l ∈ ls, dropReturn l = l := by
    intro l hl
    refine if_neg fun hlast => ?_
    exact absurd (h l hl 0x0D (List.mem_of_getLast? hlast)) (by decide)
  rw [lines_ended fun l hl hfeed => absurd (h l hl lineFeed hfeed) (by decide)]
  exact (List.map_congr_left hreturn).trans (List.map_id ls)

/-- The line of a record. -/
def lineOf (r : Record) : List UInt8 := bytesOf r.toJson.chars

/-- A file holds the lines of its records, each with a line feed behind it. -/
theorem toList_write (records : List Record) :
    (write records).toUTF8.toList
      = (records.map lineOf).flatMap (· ++ [lineFeed]) := by
  have hfeed : String.utf8EncodeChar '\n' = [lineFeed] := by decide
  rw [write, toUTF8_ofList, bytesOf, List.flatMap_assoc, List.flatMap_map]
  simp [List.flatMap_append, hfeed, lineOf, bytesOf]

/-- The lines of a written file are the texts that were written, since there is
no line feed in any of them. -/
private theorem lines_write (records : List Record) :
    lines (write records).toUTF8.toList = records.map lineOf := by
  rw [toList_write]
  refine lines_flatMap fun l hl => ?_
  obtain ⟨r, _, rfl⟩ := List.mem_map.mp hl
  exact le_of_mem_bytesOf (Json.printable_chars r.toJson)

-- ============================================================= the file

/-- A record's text is not blank, for it starts with a brace. -/
theorem isBlankText_record (r : Record) :
    Text.isBlankText r.toJson.render = false := by
  have hbrace : Text.isBlank Json.openBrace = false := by decide
  simp [Text.isBlankText, Json.Value.render, Record.toJson,
    Json.Value.chars, hbrace]

/-- The lines of records are read as the records, wherever they start and
however many were read before. -/
theorem readLines_lineOf {dimension : Nat} {records : List Record}
    (h : ∀ r ∈ records, r.dimension = dimension ∧ r.firstNonFinite? = none)
    (line row : Nat) :
    readLines record? dimension line row (records.map lineOf)
      = .ok records := by
  induction records generalizing line row with
  | nil => rfl
  | cons r rest ih =>
      obtain ⟨hdimension, hfinite⟩ := h r List.mem_cons_self
      have hrest := ih fun s hs => h s (List.mem_cons_of_mem r hs)
      have hrecord : record? r.toJson.render = some r := by
        rw [record?, Json.decode?_render,
          ofJson?_record (Corpus.firstNonFinite?_eq_none_iff.mp hfinite)]
      have htext : textOf? (lineOf r) = some r.toJson.render :=
        textOf?_bytesOf _
      rw [List.map_cons, readLines, htext]
      simp only [isBlankText_record, Bool.false_eq_true, if_false, hrecord,
        hdimension, ne_eq, not_true_eq_false, hrest]

/-- A file is read back with the dimension of its records. -/
theorem parse_write {dimension : Nat} {records : List Record}
    (h : ∀ r ∈ records, r.dimension = dimension ∧ r.firstNonFinite? = none) :
    parse dimension (write records).toUTF8.toList = .ok records := by
  rw [parse, lines_write, readLines_lineOf h]

end KnnOracle.JsonLines
