import FieldGraft.Text.CodePoints
import FieldGraft.Text.EmojiTable
import FieldGraft.Text.WidthTable

/-!
# Ligatures

Some characters are drawn together with what follows them: emoji with a selector, a skin tone or
another emoji, and letters of scripts that join. How many columns a character adds thus depends on
how the text after it opens, and of that only a little matters.

* `Opening` is what matters of the text after a character.
* `Opening.ligature?` gives the columns that a character adds by a ligature with that text.
-/

namespace FieldGraft.Text

/-! ### Classes of characters -/

/-- Joins the characters around it. -/
def joiner : Char := Char.ofNat 0x200d

/-- Asks for the text form of the character before it. -/
def textSelector : Char := Char.ofNat 0xfe0e

/-- Asks for the emoji form of the character before it. -/
def emojiSelector : Char := Char.ofNat 0xfe0f

/-- Whether a code point lies between two others, both included. -/
def liesIn (low high : Nat) (c : Char) : Bool :=
  low ≤ c.toNat && c.toNat ≤ high

/-- Is an emoji without a selector. -/
def isEmoji (c : Char) : Bool := inBounds emojiBounds c.toNat

/-- Has an emoji form and a text form. -/
def hasEmojiForm (c : Char) : Bool := inBounds emojiFormBounds c.toNat

/-- Is an emoji without a selector and narrow in its text form. -/
def hasTextForm (c : Char) : Bool := inBounds textFormBounds c.toNat

/-- Can have a skin tone. -/
def takesSkinTone (c : Char) : Bool := inBounds skinToneBounds c.toNat

def isSkinTone (c : Char) : Bool := liesIn 0x1f3fb 0x1f3ff c

/-- A letter of which two make a flag. -/
def isFlagLetter (c : Char) : Bool := liesIn 0x1f1e6 0x1f1ff c

def isTagLetter (c : Char) : Bool := liesIn 0xe0061 0xe007a c

def isTagDigit (c : Char) : Bool := liesIn 0xe0030 0xe0039 c

/-- Leaves a ligature of letters as it is. -/
def isTransparent (c : Char) : Bool :=
  inBounds [0x34f, 0x350, 0x17b4, 0x17b6, 0x180b, 0x180e, 0x180f, 0x1810, 0x200c, 0x200d, 0xfe00,
    0xfe10, 0xe0100, 0xe01f0] c.toNat

/-- Takes no column and leaves the letters around it joined. -/
def joinsAround (c : Char) : Bool :=
  inBounds narrowestBounds c.toNat && !inBounds joinBreakBounds c.toNat

/-- An Arabic letter of the form of lam. -/
def isLam (c : Char) : Bool :=
  inBounds [0x644, 0x645, 0x6b5, 0x6b9, 0x76a, 0x76b, 0x8a6, 0x8a7, 0x8c7, 0x8c8] c.toNat

/-- An Arabic letter of the form of alef. -/
def isAlef (c : Char) : Bool :=
  inBounds [0x622, 0x624, 0x625, 0x626, 0x627, 0x628, 0x671, 0x674, 0x675, 0x676, 0x773, 0x775,
    0x870, 0x883] c.toNat

/-- A Khmer letter with a form below the letter before it. -/
def hasFormBelow (c : Char) : Bool :=
  inBounds [0x1780, 0x1783, 0x1784, 0x1788, 0x1789, 0x178d, 0x178e, 0x1794, 0x1795, 0x1799, 0x179b,
    0x179e, 0x17a0, 0x17a1, 0x17a2, 0x17a3, 0x17a7, 0x17a8, 0x17ab, 0x17ad, 0x17af, 0x17b0] c.toNat

def isTifinaghConsonant (c : Char) : Bool :=
  inBounds [0x2d31, 0x2d66, 0x2d6f, 0x2d70] c.toNat

/-! ### Openings -/

/-- The form that a selector asks for. -/
inductive Form where
  | text
  | emoji
deriving DecidableEq, Repr, Inhabited

/-- The end of a ligature of letters. -/
inductive LigatureEnd where
  | hebrewLamed
  | khmerLetter
  | bugineseYa
  /-- The vowel i, a joiner and ya. -/
  | bugineseVowelYa
  | tifinaghConsonant
  /-- The joiner of the script and a consonant. -/
  | tifinaghJoined
  | lisuTone
  | turkicVowel
deriving DecidableEq, Repr, Inhabited

/-- How a text opens, as far as a character before it can see. -/
inductive Opening where
  | plain
  | lineFeed
  /-- A selector that makes quotation marks wide. -/
  | wideSelector
  | alef
  /-- Perhaps with a joiner in front. -/
  | letter (l : LigatureEnd) (joined : Bool)
  | kiratVowel
  | kiratDoubleVowel
  | skinTone
  | flagLetter
  | flagLetters
  | emoji
  /-- A joiner and an emoji. -/
  | joinedEmoji
  /-- A keycap mark, a joiner and an emoji. -/
  | joinedKeycap
  /-- One flag letter, a joiner and an emoji. -/
  | joinedFlagLetter
  /-- Several flag letters, an even or odd number of them, a joiner and an emoji. -/
  | joinedFlagLetters (even : Bool)
  /-- Digits and letters of a tag, its end, a joiner and an emoji. -/
  | joinedTag (digits letters : Nat)
deriving DecidableEq, Repr, Inhabited

namespace Opening

/-- How a text opens that starts with a character, if nothing after the character counts. -/
def ofChar (c : Char) : Opening :=
  if c.toNat ≤ 0xa0 then if c = '\n' then lineFeed else plain
  else if isAlef c then alef
  else if isEmoji c then emoji
  else if isSkinTone c then skinTone
  else if isFlagLetter c then flagLetter
  else if hasFormBelow c then letter .khmerLetter false
  else if isTifinaghConsonant c then letter .tifinaghConsonant false
  else match c.toNat with
    | 0x5dc => letter .hebrewLamed false
    | 0x1a10 => letter .bugineseYa false
    | 0xa4fc => letter .lisuTone false
    | 0xa4fd => letter .lisuTone false
    | 0x10c03 => letter .turkicVowel false
    | 0x16d67 => kiratVowel
    | 0x16d68 => kiratDoubleVowel
    | 0xfe01 => wideSelector
    | _ => plain

/-- Whether a selector leaves the opening behind it in sight. -/
def showsThrough : Opening → Form → Bool
  | alef, _ => true
  | letter _ _, _ => true
  | joinedEmoji, .emoji => true
  | joinedKeycap, .emoji => true
  | _, _ => false

/-- The columns that a character adds before the end of a ligature of letters, and the opening of
the longer text, if the two make a ligature. -/
def letterLigature? (c : Char) (joined : Bool) : LigatureEnd → Option (Int × Opening)
  | .hebrewLamed => if joined && c.toNat = 0x5d0 then some (0, plain) else none
  | .khmerLetter => if c.toNat = 0x17d2 then some (-1, plain) else none
  | .bugineseYa =>
    if joined && c.toNat = 0x1a17 then some (0, letter .bugineseVowelYa true) else none
  | .bugineseVowelYa => if c.toNat = 0x1a15 then some (0, plain) else none
  | .tifinaghConsonant =>
    if c.toNat = 0x2d7f then some (1, letter .tifinaghJoined true)
    else if joined && isTifinaghConsonant c then some (0, plain)
    else none
  | .tifinaghJoined => if isTifinaghConsonant c then some (-1, plain) else none
  | .lisuTone => if liesIn 0xa4f8 0xa4fb c then some (0, plain) else none
  | .turkicVowel => if joined && c.toNat = 0x10c32 then some (0, plain) else none

/-- The same before an emoji with a joiner. -/
def joinedLigature? (c : Char) : Option (Int × Opening) :=
  if c.toNat = 0x20e3 then some (0, joinedKeycap)
  else if isFlagLetter c then some (1, joinedFlagLetter)
  else if isSkinTone c then some (0, skinTone)
  else if c.toNat = 0xe007f then some (0, joinedTag 0 0)
  else if isEmoji c then some (0, emoji)
  else none

/-- The same before the end of a tag. A tag is three digits with up to four letters behind them, or
three to six letters, and belongs to the black flag. -/
def tagLigature? (c : Char) (digits letters : Nat) : Option (Int × Opening) :=
  if digits = 0 && isTagLetter c && letters < 6 then some (0, joinedTag 0 (letters + 1))
  else if isTagDigit c && digits < 3 && (letters ≤ 4 || 0 < digits) then
    some (0, joinedTag (digits + 1) letters)
  else if c.toNat = 0x1f3f4 && (digits = 3 || digits = 0 && 3 ≤ letters) then some (0, emoji)
  else none

/-- The columns that a character adds before a text with an opening, and the opening of the longer
text, if the two make a ligature. -/
def ligature? (c : Char) : Opening → Option (Int × Opening)
  | plain => none
  | lineFeed => none
  | wideSelector =>
    if c = '‘' || c = '’' || c = '“' || c = '”' then some (2, plain) else none
  | alef =>
    if isLam c then some (0, plain)
    else if joinsAround c then some (0, alef)
    else none
  | letter l joined =>
    if c = joiner then some (0, letter l true)
    else if isTransparent c then some (0, letter l joined)
    else letterLigature? c joined l
  | kiratVowel =>
    match c.toNat with
    | 0x16d63 => some (0, plain)
    | 0x16d67 => some (0, kiratDoubleVowel)
    | 0x16d68 => some (1, kiratVowel)
    | 0x16d69 => some (0, plain)
    | _ => none
  | kiratDoubleVowel => if c.toNat = 0x16d63 then some (0, plain) else none
  | skinTone =>
    if takesSkinTone c then some (0, emoji)
    else if c = joiner then some (0, joinedEmoji)
    else none
  | flagLetter => if isFlagLetter c then some (1, flagLetters) else none
  | flagLetters =>
    if isFlagLetter c then some (1, flagLetters)
    else if c = joiner then some (0, joinedEmoji)
    else none
  | emoji => if c = joiner then some (0, joinedEmoji) else none
  | joinedEmoji => joinedLigature? c
  | joinedKeycap => none
  | joinedFlagLetter => if isFlagLetter c then some (-1, joinedFlagLetters true) else none
  | joinedFlagLetters even =>
    if isFlagLetter c then some (if even then 3 else -1, joinedFlagLetters !even)
    else if c = joiner then some (0, joinedEmoji)
    else none
  | joinedTag digits letters => tagLigature? c digits letters

end Opening

end FieldGraft.Text
