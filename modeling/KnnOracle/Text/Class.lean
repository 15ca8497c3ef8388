/-
Classes of characters.

The classes follow Unicode 17. Three questions are answered here: whether
a character takes a column of its own where text is set in columns, how an
emoji may be drawn, and whether a character leaves a trace where a text is
quoted.
-/
import KnnOracle.Text.Class.Emoji
import KnnOracle.Text.Class.Extending
import KnnOracle.Text.Class.Invisible
import KnnOracle.Text.Class.Unassigned
import KnnOracle.Text.Class.Unjoined
import KnnOracle.Text.Class.Wide

namespace KnnOracle.Text

-- ============================================================= columns

/-- Vowels and final consonants of Hangul, which are drawn into the
syllable that a leading consonant begins. -/
def hangulRanges : Ranges :=
  [(0x1160, 0x11FF), (0xD7B0, 0xD7C6), (0xD7CB, 0xD7FB)]

/-- Signs that are drawn over or under the characters after them. -/
def overlaidRanges : Ranges :=
  [
    (0x605, 0x605), (0x70F, 0x70F), (0x890, 0x891), (0x8E2, 0x8E2),
      (0xD4E, 0xD4E),
    (0xA8FA, 0xA8FA), (0x111C2, 0x111C3), (0x113D1, 0x113D1),
      (0x1193F, 0x1193F),
    (0x11941, 0x11941), (0x11A84, 0x11A89), (0x11D46, 0x11D46),
      (0x11F02, 0x11F02)
  ]

/-- Whether a character takes no column. The filler for a leading
consonant of Hangul is never drawn, but a syllable stands in its place,
and the joiner of Tifinagh is drawn unless it joins. -/
def isWeightless (c : Char) : Bool :=
  let n := c.toNat
  n != 0x115F && n != 0x2D7F
    && (extendingRanges.contains n || ignorableRanges.contains n
      || hangulRanges.contains n
      || overlaidRanges.contains n)

/-- Whether letters join across a character. -/
def isTransparent (c : Char) : Bool :=
  isWeightless c && !unjoinedRanges.contains c.toNat

/-- Whether a character takes two columns: by its East Asian width, or
because its shape is two letters side by side. -/
def isWide (c : Char) : Bool :=
  c.toNat == 0x17A4 || wideRanges.contains c.toNat

/-- Whether a character is an invisible mark, or joins without width.
Ligatures form across such marks. -/
def isInvisibleMark (c : Char) : Bool :=
  let n := c.toNat
  n == 0x34F || n == 0x17B4 || n == 0x17B5
    || (0x180B ≤ n && n ≤ 0x180D) || n == 0x180F
    || n == 0x200D || (0xFE00 ≤ n && n ≤ 0xFE0F)
    || (0xE0100 ≤ n && n ≤ 0xE01EF)

-- =============================================================== emoji

/-- Whether a character is drawn as a picture unless text is asked for. -/
def isPicture (c : Char) : Bool := pictureRanges.contains c.toNat

/-- Whether a character can be asked to be drawn as a picture. -/
def takesPictureStyle (c : Char) : Bool := styledRanges.contains c.toNat

/-- Whether a picture gets narrow if it is asked to be drawn as text. The
squared ideographs stay wide. -/
def takesTextStyle (c : Char) : Bool :=
  isPicture c && takesPictureStyle c
    && !(0x1F200 ≤ c.toNat && c.toNat ≤ 0x1F2FF)

/-- Whether a character can take a skin tone. -/
def takesTone (c : Char) : Bool := tonedRanges.contains c.toNat

/-- Whether a character is a skin tone. -/
def isTone (c : Char) : Bool := 0x1F3FB ≤ c.toNat && c.toNat ≤ 0x1F3FF

/-- Whether a character is a letter of a flag. -/
def isFlagLetter (c : Char) : Bool := 0x1F1E6 ≤ c.toNat && c.toNat ≤ 0x1F1FF

-- ============================================================= scripts

/-- Whether a character is an alef of any kind. -/
def isAlef (c : Char) : Bool :=
  Ranges.contains c.toNat
    [(0x622, 0x623), (0x625, 0x625), (0x627, 0x627), (0x671, 0x673),
      (0x675, 0x675),
     (0x773, 0x774), (0x870, 0x882)]

/-- Whether a character is a lam of any kind. -/
def isLam (c : Char) : Bool :=
  Ranges.contains c.toNat
    [(0x644, 0x644), (0x6B5, 0x6B8), (0x76A, 0x76A), (0x8A6, 0x8A6),
      (0x8C7, 0x8C7)]

/-- Whether a Khmer letter has a form to be written below another. -/
def isSubjoinable (c : Char) : Bool :=
  Ranges.contains c.toNat
    [(0x1780, 0x1782), (0x1784, 0x1787), (0x1789, 0x178C), (0x178E, 0x1793),
     (0x1795, 0x1798), (0x179B, 0x179D), (0x17A0, 0x17A0), (0x17A2, 0x17A2),
     (0x17A7, 0x17A7), (0x17AB, 0x17AC), (0x17AF, 0x17AF)]

/-- Whether a character is a consonant of Tifinagh. -/
def isTifinagh (c : Char) : Bool :=
  (0x2D31 ≤ c.toNat && c.toNat ≤ 0x2D65) || c.toNat == 0x2D6F

/-- Whether a character is a quotation mark that can be asked to be wide. -/
def isCurlyQuote (c : Char) : Bool := ['‘', '’', '“', '”'].contains c

-- =============================================================== quotes

/-- Whether a character would leave no trace of its own in a message:
control and format characters, marks, blanks other than the space, and
code points without a character. -/
def isTraceless (c : Char) : Bool :=
  let n := c.toNat
  n < 0x20 || (0x7F ≤ n && n ≤ 0xA0) || n == 0x1680
    || (0x2000 ≤ n && n ≤ 0x200A)
    || n == 0x2028 || n == 0x2029 || n == 0x202F || n == 0x205F || n == 0x3000
    || formatRanges.contains n || extendingRanges.contains n
      || unassignedRanges.contains n

end KnnOracle.Text
