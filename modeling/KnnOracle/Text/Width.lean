/-
The width of text in columns.

Most characters take a number of columns of their own (`standing`): wide
ones two, invisible and combining ones none, control characters one like
any other. Some take more or less because of what stands after them:

* an emoji and what belongs to it (a style, a skin tone, further emoji
  behind joiners) are one picture of two columns;
* in some scripts two letters are written as one.

So a text is read from its end. `Context` is what has been read, as far as
it can still change the width, and `Context.before` puts one more
character in front. What a character adds can be negative: it is then
drawn into what was counted already.
-/
import KnnOracle.Text.Class

namespace KnnOracle.Text

-- ============================================================ contexts

/-- What stands after a character, as far as it matters. A ligature that
needs a joiner says whether the joiner is there. -/
inductive Ahead where
  | nothing
  /-- A picture, or anything that continues one. -/
  | emoji
  | tone
  /-- One letter of a flag. -/
  | flag
  /-- Two letters of flags or more. -/
  | flags
  /-- A joiner and an emoji. -/
  | joined
  /-- An enclosing keycap in front of a joiner and an emoji. -/
  | joinedKeycap
  /-- One letter of a flag in front of a joiner and an emoji. -/
  | joinedFlag
  /-- An even number of such letters. -/
  | joinedEvenFlags
  /-- An odd number of such letters, more than one. -/
  | joinedOddFlags
  /-- The tags of a region's flag in front of a joiner and an emoji: so
  many digits, and so many letters after them. -/
  | joinedTags (digits letters : Nat)
  /-- Vowel signs of Kirat Rai, which are put together of parts. -/
  | signE
  | signAi
  | alef
  | lamed (joiner : Bool)
  | ya (joiner : Bool)
  /-- The vowel of Buginese that a joiner ties to a ya. -/
  | vowelYa
  | tifinagh (joiner : Bool)
  /-- A consonant of Tifinagh behind its own joiner. -/
  | tifinaghPair
  | lisuTone
  | orkhonI (joiner : Bool)
  | subjoinable
deriving DecidableEq, Repr

namespace Ahead

/-- Whether an emoji waits behind a joiner for what it is joined to. -/
def isJoined : Ahead → Bool
  | joined => true
  | joinedKeycap => true
  | _ => false

/-- Whether a ligature of a script may still form. Styles do not end it. -/
def isLigature : Ahead → Bool
  | alef => true
  | lamed _ => true
  | ya _ => true
  | vowelYa => true
  | tifinagh _ => true
  | tifinaghPair => true
  | lisuTone => true
  | orkhonI _ => true
  | subjoinable => true
  | _ => false

/-- Notes that a joiner is there. -/
def join : Ahead → Ahead
  | lamed _ => lamed true
  | ya _ => ya true
  | tifinagh _ => tifinagh true
  | orkhonI _ => orkhonI true
  | ahead => ahead

end Ahead

/-- What stands after a character, and how it is asked to be drawn. -/
structure Context where
  ahead : Ahead := .nothing
  asPicture : Bool := false
  asText : Bool := false
  asWide : Bool := false
deriving DecidableEq, Repr

-- ================================================== a character by itself

/-- The zero width joiner. -/
def joiner : Char := '\u200D'

/-- The joiner of Tifinagh. -/
def tifinaghJoiner : Char := '\u2D7F'

/-- What a character begins, seen from in front of it. -/
def begun (c : Char) : Ahead :=
  if isPicture c then .emoji
  else if isTone c then .tone
  else if isFlagLetter c then .flag
  else if isAlef c then .alef
  else if c == '\u05DC' then .lamed false
  else if isSubjoinable c then .subjoinable
  else if c == '\u1A10' then .ya false
  else if isTifinagh c then .tifinagh false
  else if c == '\uA4FC' || c == '\uA4FD' then .lisuTone
  else if c.toNat == 0x10C03 then .orkhonI false
  else if c.toNat == 0x16D67 then .signE
  else if c.toNat == 0x16D68 then .signAi
  else .nothing

/-- The columns that a character takes by itself. The Khmer sign that
stands for three letters takes three. -/
def standing (c : Char) : Nat :=
  if c.toNat ≤ 0xA0 then 1
  else if c == '\u17D8' then 3
  else if isPicture c || isTone c then 2
  else if isWeightless c then 0
  else if isWide c then 2
  else 1

-- =========================================================== ligatures

/-- A character that is written as one with the letters after it: what it
adds, and what stands then in front. -/
def ligature? (ahead : Ahead) (c : Char) : Option (Int × Ahead) :=
  match ahead with
  | .alef =>
      if isLam c then some (0, .nothing)
      else if isTransparent c then some (0, .alef) else none
  | .lamed true => if c == '\u05D0' then some (0, .nothing) else none
  | .ya true => if c == '\u1A17' then some (0, .vowelYa) else none
  | .vowelYa => if c == '\u1A15' then some (0, .nothing) else none
  | .tifinagh joined =>
      if c == tifinaghJoiner then some (1, .tifinaghPair)
      else if joined && isTifinagh c then some (0, .nothing)
      else none
  | .tifinaghPair => if isTifinagh c then some (-1, .nothing) else none
  | .lisuTone =>
      if '\uA4F8' ≤ c && c ≤ '\uA4FB' then some (0, .nothing) else none
  | .orkhonI true => if c.toNat == 0x10C32 then some (0, .nothing) else none
  | .subjoinable => if c == '\u17D2' then some (-1, .nothing) else none
  | .signE =>
      if c.toNat == 0x16D63 || c.toNat == 0x16D69 then some (0, .nothing)
      else if c.toNat == 0x16D67 then some (0, .signAi)
      else if c.toNat == 0x16D68 then some (1, .signE)
      else none
  | .signAi => if c.toNat == 0x16D63 then some (0, .nothing) else none
  | _ => none

-- =============================================================== emoji

/-- The tags in front of the tags of a region: up to six letters, or three
digits with at most four letters after them. -/
def tags? (digits letters : Nat) (c : Char) : Option Ahead :=
  let n := c.toNat
  if 0xE0061 ≤ n && n ≤ 0xE007A then
    if digits = 0 ∧ letters < 6 then some (.joinedTags 0 (letters + 1))
      else none
  else if 0xE0030 ≤ n && n ≤ 0xE0039 then
    if digits < 3 ∧ letters ≤ 4 then some (.joinedTags (digits + 1) letters)
      else none
  else if n == 0x1F3F4 then
    if digits = 3 ∨ (digits = 0 ∧ 3 ≤ letters) then some .emoji else none
  else none

/-- A character that belongs to the emoji after it: what it adds, and what
stands then in front. -/
def emoji? (ahead : Ahead) (c : Char) : Option (Int × Ahead) :=
  match ahead with
  | .emoji => if c == joiner then some (0, .joined) else none
  | .tone =>
      if takesTone c then some (0, .emoji)
      else if c == joiner then some (0, .joined) else none
  | .flag => if isFlagLetter c then some (1, .flags) else none
  | .flags =>
      if isFlagLetter c then some (1, .flags)
      else if c == joiner then some (0, .joined)
      else none
  | .joined =>
      if c == '\u20E3' then some (0, .joinedKeycap)
      else if isFlagLetter c then some (1, .joinedFlag)
      else if isTone c then some (0, .tone)
      else if c.toNat == 0xE007F then some (0, .joinedTags 0 0)
      else if isPicture c then some (0, .emoji)
      else none
  | .joinedFlag => if isFlagLetter c then some (-1, .joinedEvenFlags) else none
  | .joinedEvenFlags =>
      if isFlagLetter c then some (3, .joinedOddFlags)
      else if c == joiner then some (0, .joined)
      else none
  | .joinedOddFlags =>
      if isFlagLetter c then some (-1, .joinedEvenFlags)
      else if c == joiner then some (0, .joined)
      else none
  | .joinedTags digits letters =>
      (tags? digits letters c).map fun ahead => (0, ahead)
  | _ => none

-- ====================================================== reading backwards

namespace Context

/-- A request for a picture that the character in front cannot follow is
dropped, and with it everything but the beginning of a ligature. -/
def dropPicture (ctx : Context) : Context :=
  if !ctx.asPicture then ctx
  else if ctx.ahead.isLigature then { ctx with asPicture := false }
  else {}

/-- What stays of what stands ahead where a style is asked for. -/
def kept (ctx : Context) : Context := if ctx.ahead.isLigature then ctx else {}

/-- Puts a character in front that no style is asked for. -/
def plainBefore (ahead : Ahead) (c : Char) : Int × Context :=
  if ahead.isLigature && ahead != .alef && isInvisibleMark c then
    (0, { ahead := if c == joiner then ahead.join else ahead })
  else
    match (ligature? ahead c).or (emoji? ahead c) with
    | some (columns, ahead) => (columns, { ahead })
    | none => (standing c, { ahead := begun c })

/-- Puts a character in front: what it adds to the width, and the context
that it leaves. -/
def before (ctx : Context) (c : Char) : Int × Context :=
  if ctx.asPicture && takesPictureStyle c then
    (if ctx.ahead.isJoined then 0 else 2, { ahead := .emoji })
  else
    let ctx := ctx.dropPicture
    if c.toNat ≤ 0xA0 then (1, {})
    else if c == '\uFE0F' then
      (0, { (if ctx.ahead.isJoined then ctx else ctx.kept) with
        asPicture := true })
    else if c == '\uFE0E' then (0, { ctx.kept with asText := true })
    else if c == '\uFE01' then (0, { ctx.kept with asWide := true })
    else if ctx.asText && takesTextStyle c then (1, {})
    else if ctx.asWide && isCurlyQuote c then (2, {})
    else plainBefore ctx.ahead c

end Context

/-- Reads one more character: the columns so far, and the context. -/
def readOn (c : Char) (read : Int × Context) : Int × Context :=
  let (columns, ctx) := read.2.before c
  (read.1 + columns, ctx)

/-- The columns of a text, and the context in front of it. -/
def measured (cs : List Char) : Int × Context := cs.foldr readOn (0, {})

/-- The columns that a text takes. -/
def width (cs : List Char) : Nat := (measured cs).1.toNat

end KnnOracle.Text
