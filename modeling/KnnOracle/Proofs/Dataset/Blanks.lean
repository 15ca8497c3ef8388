/-
Lines of blanks among the lines of a file.

A file is lines that end at a line feed and a last one behind them that
may be missing (`exists_ended`). Only this last line may keep a carriage
return: with the line feed supplied it loses it. A reader of single lines
that overlooks a carriage return behind a text does not tell the two
apart (`readFile_supplied`), and the reader of JSON texts is one
(`record?_return`).

A line of blanks is one line of a file, whatever blanks it holds and
whichever of the two line ends it has, and it is read as blank
(`BlankLine.reads`). So what holds of lines put between lines holds of
files (`readFile_settles`).
-/
import KnnOracle.Proofs.Dataset.LineFaults
import KnnOracle.Proofs.Dataset.Lines
import KnnOracle.Proofs.Json.Trailing

namespace KnnOracle.JsonLines

variable {reader : String → Option Record} {dimension : Nat}

-- ============================================================ the bytes

/-- Bytes are a text if they are the bytes of one, and that text is the only
one. -/
private theorem textOf?_eq_some_iff {bytes : List UInt8} {text : String} :
    textOf? bytes = some text ↔ bytes = bytesOf text.toList := by
  constructor
  · intro h
    rw [textOf?, String.fromUTF8?] at h
    split at h
    · next hvalid =>
        have hbytes : text.toByteArray = ⟨bytes.toArray⟩ := by
          rw [← Option.some.inj h]
          rfl
        have hdata := congrArg (fun a => a.data.toList) hbytes
        rw [← String.utf8Encode_toList, List.utf8Encode, List.data_toByteArray]
          at hdata
        exact hdata.symm
    · cases h
  · rintro rfl
    rw [textOf?_bytesOf, String.ofList_toList]

/-- A carriage return. -/
def carriageReturn : UInt8 := 0x0D

private theorem bytesOf_append (cs ds : List Char) :
    bytesOf (cs ++ ds) = bytesOf cs ++ bytesOf ds :=
  List.flatMap_append

private theorem bytesOf_return : bytesOf ['\r'] = [carriageReturn] := by decide

/-- The bytes below 0x20 are the control characters themselves. So a line feed
among the bytes of a text is a line feed of the text. -/
theorem eq_of_mem_utf8EncodeChar {c : Char} {b : UInt8}
    (hb : b ∈ String.utf8EncodeChar c) (h : b.toNat < 0x20) :
    String.utf8EncodeChar c = [b] ∧ c.toNat = b.toNat := by
  have hcontrol : c.toNat < 0x20 := by
    by_contra hc
    have := le_of_mem_utf8EncodeChar (Nat.le_of_not_lt hc) b hb
    omega
  have hvalue : c.val.toNat = c.toNat := rfl
  have hbytes : String.utf8EncodeChar c = [UInt8.ofNat c.toNat] := by
    simp only [String.utf8EncodeChar, hvalue]
    rw [if_pos (by omega)]
  rw [hbytes, List.mem_singleton] at hb
  subst hb
  refine ⟨hbytes, ?_⟩
  rw [UInt8.toNat_ofNat']
  omega

/-- The last character of a text that ends in a control byte is that byte. -/
theorem exists_of_bytesOf_eq {cs : List Char} {line : List UInt8} {b : UInt8}
    (hb : b.toNat < 0x20) (h : bytesOf cs = line ++ [b]) :
    ∃ init, line = bytesOf init := by
  rcases List.eq_nil_or_concat cs with rfl | ⟨init, c, rfl⟩
  · simp [bytesOf] at h
  · rw [List.concat_eq_append, bytesOf_append] at h
    have hlast : b ∈ String.utf8EncodeChar c := by
      have hne : String.utf8EncodeChar c ≠ [] := by
        rw [← List.length_pos_iff, String.length_utf8EncodeChar]
        exact c.utf8Size_pos
      have hends := congrArg List.getLast? h
      rw [List.getLast?_concat, bytesOf, bytesOf, List.flatMap_singleton,
        List.getLast?_append_of_ne_nil _ hne] at hends
      exact List.mem_of_getLast? hends
    have hsingle : bytesOf [c] = [b] := by
      rw [bytesOf, List.flatMap_singleton]
      exact (eq_of_mem_utf8EncodeChar hlast hb).1
    rw [hsingle] at h
    exact ⟨init, (List.append_inj_left' h rfl).symm⟩

/-- A carriage return behind the bytes of a text is one behind the text. It may
be taken off before decoding or after, and the program does the former. -/
theorem textOf?_return (line : List UInt8) :
    textOf? (line ++ [carriageReturn]) = (textOf? line).map (· ++ "\r") := by
  cases h : textOf? line with
  | some text =>
      refine textOf?_eq_some_iff.mpr ?_
      rw [String.toList_append, bytesOf_append, ← textOf?_eq_some_iff.mp h]
      exact congrArg (line ++ ·) bytesOf_return.symm
  | none =>
      cases h' : textOf? (line ++ [carriageReturn]) with
      | none => rfl
      | some text =>
          obtain ⟨init, rfl⟩ :=
            exists_of_bytesOf_eq (by decide) (textOf?_eq_some_iff.mp h').symm
          rw [textOf?_bytesOf] at h
          cases h

/-- A carriage return is blank, so it does not decide whether a line is. -/
private theorem isBlankText_return (text : String) :
    Text.isBlankText (text ++ "\r") = Text.isBlankText text := by
  have hreturn : Text.isBlank '\r' = true := by decide
  rw [Text.isBlankText, Text.isBlankText, String.toList_append]
  simp [hreturn]

/-- The reader takes a carriage return at the end of a line for part of the
text. That it can be dropped depends on the reader of lines. -/
private theorem reading_return (line : List UInt8) :
    reading reader (line ++ [carriageReturn])
      = reading (fun text => reader (text ++ "\r")) line := by
  rw [reading, reading, textOf?_return]
  cases textOf? line with
  | none => rfl
  | some text => simp only [Option.map_some, isBlankText_return]

/-- A line and the line without its carriage return are read alike, unless the
reader of single lines tells them apart. -/
theorem reading_dropReturn {line : List UInt8}
    (h : (∀ text, reader (text ++ "\r") = reader text) ∨
      line.getLast? ≠ some carriageReturn) :
    reading reader (dropReturn line) = reading reader line := by
  rw [dropReturn]
  split
  · next hlast =>
      have hsame := h.resolve_right (· hlast)
      obtain ⟨init, rfl⟩ := List.getLast?_eq_some_iff.mp hlast
      rw [List.dropLast_concat]
      have hreading := @reading_return reader init
      rw [funext hsame] at hreading
      exact hreading.symm
  · rfl

private theorem reading_eq_blank {line : List UInt8} :
    reading reader line = .blank ↔ ∃ text, textOf? line = some text ∧
      Text.isBlankText text := by
  rw [reading]
  cases textOf? line with
  | none => simp
  | some text =>
      by_cases h : Text.isBlankText text = true
      · simp [h]
      · cases hreader : reader text <;> simp [h, hreader]

-- ============================================================= the file

/-- A file whose lines all end at a line feed. -/
def fileOf (raws : List (List UInt8)) : List UInt8 :=
  raws.flatMap (· ++ [lineFeed])

/-- The lines of a file as they stand there, without their line feeds. -/
def rawLines (bytes : List UInt8) : List (List UInt8) :=
  let all := pieces (· == lineFeed) bytes
  match all.getLast? with
  | some (_ :: _) => all
  | _ => all.dropLast

/-- The file with a missing line feed at its end supplied. -/
def supplied (bytes : List UInt8) : List UInt8 :=
  if bytes = [] ∨ bytes.getLast? = some lineFeed then bytes
  else bytes ++ [lineFeed]

/-- A line of blanks, with or without a carriage return. -/
def BlankLine (raw : List UInt8) : Prop :=
  ∃ blanks ending, (∀ c ∈ blanks, Text.isBlank c = true ∧ c ≠ '\n') ∧
    (ending = [] ∨ ending = [carriageReturn]) ∧ raw = bytesOf blanks ++ ending

/-- Reads a whole file with a reader of single lines. -/
def readFile (reader : String → Option Record) (dimension : Nat)
    (bytes : List UInt8) :
    Except DatasetFault (List Record) :=
      readLines reader dimension 1 0 (lines bytes)

/-- What follows the last line feed, if anything does. -/
def opened (last : List UInt8) : List (List UInt8) :=
  if last = [] then [] else [last]

/-- A file is its lines, each with its line feed, and what stands behind the
last of them. -/
private theorem intercalate_concat (ended : List (List UInt8))
    (last : List UInt8) :
    [lineFeed].intercalate (ended ++ [last]) = fileOf ended ++ last := by
  induction ended with
  | nil => simp [List.intercalate, fileOf]
  | cons raw ended ih =>
      cases ended with
      | nil => simp [List.intercalate, fileOf]
      | cons raw' ended =>
          simp only [List.intercalate, List.cons_append,
            List.intersperse_cons_cons, List.flatten_cons] at ih ⊢
          rw [ih]
          simp [fileOf]

private theorem fileOf_append (raws more : List (List UInt8)) :
    fileOf (raws ++ more) = fileOf raws ++ fileOf more := List.flatMap_append

/-- A file ends at a line feed unless a last line follows it. Supplying the
missing line feed makes all files be of one form. -/
theorem supplied_ended {last : List UInt8} (ended : List (List UInt8))
    (h : lineFeed ∉ last) :
    fileOf (ended ++ opened last) = supplied (fileOf ended ++ last) := by
  by_cases hlast : last = []
  · have hends : fileOf ended = [] ∨
        (fileOf ended).getLast? = some lineFeed := by
      rcases List.eq_nil_or_concat ended with rfl | ⟨init, raw, rfl⟩
      · exact .inl rfl
      · rw [List.concat_eq_append, fileOf_append, fileOf, fileOf,
          List.flatMap_singleton, ← List.append_assoc, List.getLast?_concat]
        exact .inr rfl
    rw [opened, if_pos hlast, hlast, List.append_nil, List.append_nil,
      supplied, if_pos hends]
  · have hopen : ¬(fileOf ended ++ last = [] ∨
        (fileOf ended ++ last).getLast? = some lineFeed) := by
      rintro (hnil | hfeed)
      · exact hlast (List.append_eq_nil_iff.mp hnil).2
      · rw [List.getLast?_append_of_ne_nil _ hlast] at hfeed
        exact h (List.mem_of_getLast? hfeed)
    rw [supplied, if_neg hopen, opened, if_neg hlast, fileOf_append,
      List.append_assoc]
    simp [fileOf]

/-- A file is lines that end at a line feed, and a last one that may be
missing. What is said of files is shown for this form. -/
theorem exists_ended (bytes : List UInt8) :
    ∃ ended last, (∀ raw ∈ ended ++ [last], lineFeed ∉ raw) ∧
      bytes = fileOf ended ++ last ∧
      lines bytes = ended.map dropReturn ++ opened last ∧
      rawLines bytes = ended ++ opened last ∧
      fileOf (rawLines bytes) = supplied bytes := by
  have hfree : ∀ raw ∈ pieces (· == lineFeed) bytes, lineFeed ∉ raw :=
      fun raw hraw hmem => by
    have hnot := not_separator_of_mem_pieces hraw lineFeed hmem
    simp at hnot
  have hbytes := intercalate_pieces lineFeed bytes
  rcases List.eq_nil_or_concat (pieces (· == lineFeed) bytes) with hnil |
    ⟨ended, last, hall⟩
  · exact absurd hnil (pieces_ne_nil _ _)
  · rw [List.concat_eq_append] at hall
    rw [hall] at hfree hbytes
    have hfile := hbytes.symm.trans (intercalate_concat ended last)
    have hraws : rawLines bytes = ended ++ opened last := by
      simp only [rawLines, hall, List.dropLast_concat,
        List.getLast?_concat, opened]
      cases last <;> simp
    refine ⟨ended, last, hfree, hfile, ?_, hraws, ?_⟩
    · simp only [lines, hall, List.dropLast_concat,
        List.getLast?_concat, opened]
      cases last <;> simp
    · rw [hraws, supplied_ended ended (hfree last (by simp)), ← hfile]

private theorem lineFeed_not_mem_rawLines (bytes : List UInt8) :
    ∀ raw ∈ rawLines bytes, lineFeed ∉ raw := by
  obtain ⟨ended, last, hfree, -, -, hraws, -⟩ := exists_ended bytes
  refine fun raw hraw => hfree raw ?_
  rw [hraws, opened] at hraw
  split at hraw
  · exact List.mem_append_left _ (by simpa using hraw)
  · exact hraw

/-- Supplying the last line feed changes no line. -/
private theorem lines_supplied (bytes : List UInt8) :
    lines (supplied bytes) = (rawLines bytes).map dropReturn := by
  obtain ⟨_, _, -, -, -, -, hfile⟩ := exists_ended bytes
  rw [← hfile, fileOf, lines_ended (lineFeed_not_mem_rawLines bytes)]

/-- Nothing is lost with a line feed that was missing, unless the reader of
single lines tells a line from the line without its carriage return. -/
theorem readFile_supplied (dimension : Nat) {bytes : List UInt8}
    (h : (∀ text, reader (text ++ "\r") = reader text) ∨
      bytes.getLast? ≠ some carriageReturn) :
    readFile reader dimension (supplied bytes)
      = readFile reader dimension bytes := by
  obtain ⟨ended, last, -, hbytes, hlines, hraws, -⟩ := exists_ended bytes
  refine readLines_congr ?_ 1 0
  rw [lines_supplied, hlines, hraws, List.map_append, List.map_append,
    List.map_append]
  congr 1
  by_cases hlast : last = []
  · simp [opened, hlast]
  · have hends : bytes.getLast? = last.getLast? := by
      rw [hbytes, List.getLast?_append_of_ne_nil _ hlast]
    rw [hends] at h
    simp [opened, hlast, reading_dropReturn h]

/-- The byte of a line feed belongs to no other character. Hence a text without
line feeds is one line. -/
private theorem lineFeed_not_mem_bytesOf {cs : List Char}
    (h : ∀ c ∈ cs, c ≠ '\n') : lineFeed ∉ bytesOf cs := by
  intro hmem
  obtain ⟨c, hc, hfeed⟩ := List.mem_flatMap.mp hmem
  have hvalue := (eq_of_mem_utf8EncodeChar hfeed (by decide)).2
  exact h c hc (Char.toNat_inj.mp hvalue)

/-- A line of blanks is one line, and is read as blank: it has no line feed
inside, whatever other blanks it is made of. -/
theorem BlankLine.reads {raw : List UInt8} (h : BlankLine raw)
    (reader : String → Option Record) :
    lineFeed ∉ raw ∧ reading reader (dropReturn raw) = .blank := by
  obtain ⟨blanks, ending, hblanks, hending, hraw⟩ := h
  -- a carriage return is one more blank
  obtain ⟨cs, hcs, rfl⟩ : ∃ cs, (∀ c ∈ cs, Text.isBlank c = true ∧ c ≠ '\n') ∧
      raw = bytesOf cs := by
    rcases hending with rfl | rfl
    · exact ⟨blanks, hblanks, by rw [hraw, List.append_nil]⟩
    · refine ⟨blanks ++ ['\r'], fun c hc => ?_,
        by rw [hraw, bytesOf_append, bytesOf_return]⟩
      rcases List.mem_append.mp hc with hc | hc
      · exact hblanks c hc
      · rw [List.mem_singleton.mp hc]
        decide
  have hblank : ∀ reader, reading reader (bytesOf cs) = .blank :=
      fun reader => by
    refine reading_eq_blank.mpr ⟨_, textOf?_bytesOf cs, ?_⟩
    rw [Text.isBlankText, String.toList_ofList, List.all_eq_true]
    exact fun c hc => (hcs c hc).1
  refine ⟨lineFeed_not_mem_bytesOf fun c hc => (hcs c hc).2, ?_⟩
  -- what is blank is so to any reader, also to one that overlooks the return
  have hdropped :=
    @reading_dropReturn (fun _ => none) (bytesOf cs) (.inl fun _ => rfl)
  rw [hblank, reading_eq_blank] at hdropped
  exact reading_eq_blank.mpr hdropped

/-- The lines of a file with lines of blanks put between its own are the lines
woven together. This carries what is shown for lists of lines over to files. -/
theorem lines_weave {gaps : List (List (List UInt8))}
    (h : ∀ gap ∈ gaps, ∀ raw ∈ gap, lineFeed ∉ raw) (bytes : List UInt8) :
    lines (fileOf (weave gaps (rawLines bytes)))
      = weave (gaps.map (List.map dropReturn)) (lines (supplied bytes)) := by
  rw [lines_supplied, ← map_weave, fileOf]
  refine lines_ended fun raw hraw => ?_
  rcases mem_weave.mp hraw with ⟨gap, hgap, hraw⟩ | hraw
  · exact h gap hgap raw hraw
  · exact lineFeed_not_mem_rawLines bytes raw hraw

/-- Where the records move to depends only on how many blank lines there are,
not on what is in them. -/
private theorem moved_map {α β : Type} (f : α → β) (gaps : List (List α)) :
    moved (gaps.map (List.map f)) = moved gaps := by
  funext fault
  cases fault with
  | malformedLine line =>
      rw [moved, moved, ← List.map_take, ← List.map_flatten, List.length_map]
  | _ => rfl

/-- Lines of blanks put between the lines of a file move the line of a fault,
and change no record and no row. -/
theorem readFile_weave {gaps : List (List (List UInt8))}
    (h : ∀ gap ∈ gaps, ∀ raw ∈ gap, BlankLine raw) (bytes : List UInt8) :
    readFile reader dimension (fileOf (weave gaps (rawLines bytes)))
      = (readFile reader dimension (supplied bytes)).mapError
        (moved gaps) := by
  have hblank : ∀ gap ∈ gaps.map (List.map dropReturn), ∀ l ∈ gap,
      reading reader l = .blank := by
    intro gap hgap l hl
    obtain ⟨raws, hraws, rfl⟩ := List.mem_map.mp hgap
    obtain ⟨raw, hraw, rfl⟩ := List.mem_map.mp hl
    exact ((h raws hraws raw hraw).reads reader).2
  have hlines :=
    lines_weave (fun gap hgap raw hraw =>
      ((h gap hgap raw hraw).reads reader).1) bytes
  rw [readFile, readFile, hlines, readLines_weave hblank, moved_map]

-- =========================================================== the two ends

/-- The records of a file are the records of its lines, all of which are blank
or records of the right dimension. -/
theorem readFile_ok_iff {bytes : List UInt8} {records : List Record} :
    readFile reader dimension bytes = .ok records ↔
      (∀ l ∈ lines bytes, Sound reader dimension l) ∧
        records = recordsOf reader (lines bytes) := by
  constructor
  · intro h
    rcases readLines_ends (lines bytes) with ⟨hall, hread⟩ |
      ⟨_, _, _, fault, -, -, -, hread⟩
    · exact ⟨hall, Except.ok.inj (h.symm.trans hread)⟩
    · cases h.symm.trans hread
  · rintro ⟨hall, rfl⟩
    exact readLines_sound hall

/-- The fault of a file is the fault of its first line that is neither, and no
line behind it has any say. -/
theorem readFile_error_iff {bytes : List UInt8} {fault : DatasetFault} :
    readFile reader dimension bytes = .error fault ↔
      ∃ before line after, lines bytes = before ++ line :: after ∧
        (∀ l ∈ before, Sound reader dimension l) ∧
        Faulty reader dimension (before.length + 1)
          (recordsOf reader before).length line fault := by
  constructor
  · intro h
    rcases readLines_ends (lines bytes) with
      ⟨-, hread⟩ | ⟨before, line, after, first, hlines, hbefore, hfirst, hread⟩
    · cases h.symm.trans hread
    · obtain rfl := Except.error.inj (h.symm.trans hread)
      exact ⟨before, line, after, hlines, hbefore, hfirst⟩
  · rintro ⟨before, line, after, hlines, hbefore, hfault⟩
    rw [readFile, hlines]
    exact readLines_split hbefore hfault

/-- The reader of JSON texts overlooks a carriage return behind a line, so that
it does not matter which line end a file uses. -/
theorem record?_return (text : String) :
    record? (text ++ "\r") = record? text :=
  Json.decode?_return Record.ofJson? text

/-- Reading stops at the first fault and passes over blank lines.

Whatever reads a single line: the answer for a file is the records of its
lines, in order, if every line is blank or a record of the right
dimension, and otherwise the fault of the first line that is neither. The
fault names the line by its place among all lines, or the row by the
records before it.

Lines of blanks may be put before, between and behind the lines of a file
with the feed at its end supplied: the answer is the same but for the line
of a fault, which moves by the lines put before it. Supplying the feed
changes no answer of a reader that overlooks a carriage return, such as
the one of JSON texts, and of no reader if there is none at the end. -/
theorem readFile_settles (reader : String → Option Record) (dimension : Nat)
    (bytes : List UInt8) :
    (∀ records, readFile reader dimension bytes = .ok records ↔
      (∀ l ∈ lines bytes, Sound reader dimension l) ∧
        records = recordsOf reader (lines bytes)) ∧
    (∀ fault, readFile reader dimension bytes = .error fault ↔
      ∃ before line after, lines bytes = before ++ line :: after ∧
        (∀ l ∈ before, Sound reader dimension l) ∧
        Faulty reader dimension (before.length + 1)
          (recordsOf reader before).length line fault) ∧
    (∃ ended last, (∀ raw ∈ ended ++ [last], lineFeed ∉ raw) ∧
      bytes = fileOf ended ++ last ∧
      lines bytes = ended.map dropReturn ++ opened last ∧
      rawLines bytes = ended ++ opened last ∧
      fileOf (rawLines bytes) = supplied bytes) ∧
    ∀ gaps : List (List (List UInt8)),
      (∀ gap ∈ gaps, ∀ raw ∈ gap, BlankLine raw) →
      readFile reader dimension (fileOf (weave gaps (rawLines bytes)))
        = (readFile reader dimension (supplied bytes)).mapError (moved gaps) ∧
      ((∀ text, reader (text ++ "\r") = reader text) ∨
        bytes.getLast? ≠ some carriageReturn →
        readFile reader dimension (fileOf (weave gaps (rawLines bytes)))
          = (readFile reader dimension bytes).mapError (moved gaps)) ∧
      parse dimension (fileOf (weave gaps (rawLines bytes)))
        = (parse dimension bytes).mapError (moved gaps) := by
  refine ⟨fun _ => readFile_ok_iff, fun _ => readFile_error_iff,
    exists_ended bytes,
    fun gaps hgaps => ⟨readFile_weave hgaps bytes, fun hreturn => ?_, ?_⟩⟩
  · rw [readFile_weave hgaps, readFile_supplied dimension hreturn]
  · show readFile record? dimension (fileOf (weave gaps (rawLines bytes)))
      = (readFile record? dimension bytes).mapError (moved gaps)
    rw [readFile_weave hgaps,
      readFile_supplied dimension (.inl record?_return)]

end KnnOracle.JsonLines
