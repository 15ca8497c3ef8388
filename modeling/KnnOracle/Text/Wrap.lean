/-
Lines cut to a width.

`wrap limit line` lays the words of a line out on lines of at most `limit`
columns: each takes as many words as fit, with a blank between two. A word
that fits no line is cut itself, its first part filling up the line it
comes to. A line with no more than `slack` columns left is closed, since
too little would fit.

Only blanks are lost (`filter_flatten_wrap`): those where a line ends, and
those in front of its first word. That the columns of an open line can be
counted word by word is `measured_append_blank`: a blank joins nothing, so
what stands on its two sides takes the columns that it takes alone.
-/
import KnnOracle.Pieces
import KnnOracle.Text.Width

namespace KnnOracle.Text

-- ========================================================= cutting a word

/-- The first characters that fit into so many columns, each counted by
itself, and the others. -/
def takeColumns (room : Nat) : List Char → List Char × List Char
  | [] => ([], [])
  | c :: rest =>
      if width [c] ≤ room then
        let (taken, left) := takeColumns (room - width [c]) rest
        (c :: taken, left)
      else ([], c :: rest)

/-- Cuts a word, and takes its first character even where it does not
fit. -/
def cutWord (room : Nat) (c : Char) (rest : List Char) :
    List Char × List Char :=
  match takeColumns room (c :: rest) with
  | ([], _) => ([c], rest)
  | parts => parts

/-- What fits in a line and what is left are the whole word. -/
private theorem takeColumns_append (room : Nat) (cs : List Char) :
    (takeColumns room cs).1 ++ (takeColumns room cs).2 = cs := by
  induction cs generalizing room with
  | nil => rfl
  | cons c rest ih =>
      rw [takeColumns]
      split
      · exact congrArg (c :: ·) (ih _)
      · rfl

/-- A cut loses nothing. -/
theorem cutWord_append (room : Nat) (c : Char) (rest : List Char) :
    (cutWord room c rest).1 ++ (cutWord room c rest).2 = c :: rest := by
  have whole := takeColumns_append room (c :: rest)
  unfold cutWord
  split
  · rfl
  · exact whole

/-- A cut takes something. -/
theorem cutWord_ne_nil (room : Nat) (c : Char) (rest : List Char) :
    (cutWord room c rest).1 ≠ [] := by
  unfold cutWord
  split
  · exact List.cons_ne_nil _ _
  · next parts hne =>
      intro h
      exact hne _ (Prod.ext h rfl)

/-- What a cut leaves is shorter. -/
theorem length_cutWord_lt (room : Nat) (c : Char) (rest : List Char) :
    (cutWord room c rest).2.length < (c :: rest).length := by
  have whole := congrArg List.length (cutWord_append room c rest)
  have taken := List.length_pos_iff.mpr (cutWord_ne_nil room c rest)
  rw [List.length_append] at whole
  omega

-- ====================================================== laying out a line

/-- Columns that are too few to go on with a line. -/
def slack : Nat := 2

/-- A line being laid out: the lines that are closed, the last one first,
and the open line with its columns, its last character first. -/
structure Wrapping where
  closed : List (List Char) := []
  line : List Char := []
  columns : Nat := 0

namespace Wrapping

/-- Closes the open line. -/
def close (w : Wrapping) : Wrapping := { closed := w.line.reverse :: w.closed }

/-- The columns that the open line has left for a word. -/
def room (limit : Nat) (w : Wrapping) : Nat :=
  if w.line.isEmpty then limit else limit - (w.columns + 1)

/-- Puts a word on the open line, whether it fits or not. -/
def put (w : Wrapping) (word : List Char) : Wrapping :=
  if w.line.isEmpty then { w with line := word.reverse, columns := width word }
  else { w with
    line := word.reverse ++ ' ' :: w.line, columns :=
      w.columns + 1 + width word }

/-- Closes the open line if it is full. -/
def settle (limit : Nat) (w : Wrapping) : Wrapping :=
  if limit - slack < w.columns then w.close else w

/-- Closes the open line if too little is left of it. -/
def makeRoom (limit : Nat) (w : Wrapping) : Wrapping :=
  if !w.line.isEmpty && decide (w.room limit ≤ slack) then w.close else w

/-- Lays out one more word: on the open line if it fits there, else on a
line of its own if it fits there, else cut. -/
def place (limit : Nat) (w : Wrapping) (word : List Char) : Wrapping :=
  if width word ≤ w.room limit then (w.put word).settle limit
  else if width word ≤ limit then (w.close.put word).settle limit
  else
    match word with
    | [] => w
    | c :: rest =>
        let w := w.makeRoom limit
        let parts := cutWord (w.room limit) c rest
        ((w.put parts.1).settle limit).place limit parts.2
termination_by word.length
decreasing_by exact length_cutWord_lt _ _ _

/-- The lines, where the open one counts if anything stands on it. -/
def lines (w : Wrapping) : List (List Char) :=
  (if w.line.isEmpty then w else w.close).closed.reverse

end Wrapping

/-- A line as lines of at most `limit` columns. -/
def wrap (limit : Nat) (line : List Char) : List (List Char) :=
  ((pieces (· == ' ') line).foldl (Wrapping.place limit) {}).lines

-- ============================================================ the laws

/-- Columns add up, whatever was counted before. -/
theorem foldr_readOn (columns : Int) (ctx : Context) (cs : List Char) :
    cs.foldr readOn (columns, ctx)
      = (columns + (cs.foldr readOn (0, ctx)).1,
        (cs.foldr readOn (0, ctx)).2) := by
  induction cs with
  | nil => simp
  | cons c rest ih =>
      rw [List.foldr_cons, List.foldr_cons, ih]
      simp only [readOn]
      rw [Int.add_assoc]

/-- Nothing is asked for in front of a blank. -/
theorem before_blank (ctx : Context) : ctx.before ' ' = (1, {}) := by
  have unstyled : takesPictureStyle ' ' = false := by decide
  simp [Context.before, unstyled]

/-- A blank takes a column and joins nothing. -/
theorem measured_append_blank (left right : List Char) :
    measured (left ++ ' ' :: right)
      = ((measured right).1 + 1 + (measured left).1, (measured left).2) := by
  rw [measured, List.foldr_append, List.foldr_cons, ← measured, readOn,
    before_blank]
  exact foldr_readOn _ _ _

namespace Wrapping

/-- What was laid out so far, but for the blanks. -/
def ink (w : Wrapping) : List Char :=
  (w.closed.reverse.flatten ++ w.line.reverse).filter (· != ' ')

/-- Closing a line keeps what is written. -/
private theorem ink_close (w : Wrapping) : w.close.ink = w.ink := by
  simp [ink, close]

/-- A word adds its characters to what is written. -/
private theorem ink_put (w : Wrapping) (word : List Char) :
    (w.put word).ink = w.ink ++ word.filter (· != ' ') := by
  unfold put
  split
  · next h => simp [ink, List.isEmpty_iff.mp h]
  · simp [ink]

/-- Cutting a long word into lines keeps what is written. -/
private theorem ink_settle (limit : Nat) (w : Wrapping) :
    (w.settle limit).ink = w.ink := by
  unfold settle
  split
  · exact ink_close w
  · rfl

/-- Making room on a line keeps what is written. -/
private theorem ink_makeRoom (limit : Nat) (w : Wrapping) :
    (w.makeRoom limit).ink = w.ink := by
  unfold makeRoom
  split
  · exact ink_close w
  · rfl

/-- A word is laid out whole. -/
theorem ink_place (limit : Nat) (w : Wrapping) (word : List Char) :
    (w.place limit word).ink = w.ink ++ word.filter (· != ' ') := by
  fun_induction place limit w word with
  | case1 w word => rw [ink_settle, ink_put]
  | case2 w word => rw [ink_settle, ink_put, ink_close]
  | case3 w => simp
  | case4 w c rest _ _ w' parts ih =>
      rw [ih, ink_settle, ink_put, ink_makeRoom, List.append_assoc,
        ← List.filter_append, cutWord_append]

/-- What is written is what the lines hold, but for spaces. -/
private theorem filter_flatten_lines (w : Wrapping) :
    w.lines.flatten.filter (· != ' ') = w.ink := by
  unfold lines
  split
  · next h => simp [ink, List.isEmpty_iff.mp h]
  · rw [← ink_close w]
    simp [ink, close]

end Wrapping

/-- Only blanks are lost. -/
theorem filter_flatten_wrap (limit : Nat) (line : List Char) :
    (wrap limit line).flatten.filter (· != ' ') = line.filter (· != ' ') := by
  suffices key : ∀ (words : List (List Char)) (w : Wrapping),
      (words.foldl (Wrapping.place limit) w).ink
        = w.ink ++ words.flatten.filter (· != ' ') by
    rw [wrap, Wrapping.filter_flatten_lines, key, flatten_pieces,
      List.filter_filter]
    simp [Wrapping.ink, bne]
  intro words
  induction words with
  | nil => simp
  | cons word rest ih =>
      intro w
      rw [List.foldl_cons, ih, Wrapping.ink_place, List.flatten_cons,
        List.filter_append, List.append_assoc]

end KnnOracle.Text
