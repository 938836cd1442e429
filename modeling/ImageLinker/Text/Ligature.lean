import ImageLinker.Text.CharSet.Letters
import ImageLinker.Text.CharSet.Width

/-!
# Ligatures

Some letters merge with a letter before them and then take fewer columns than apart. In a text that
is read from its end, the second letter of a ligature comes first, and the state of a ligature is
what has been read of it. Marks without a picture do not part the letters of a ligature, nor do
joiners, without which some ligatures are not formed; only the Arabic ligature has rules of its own.
-/

namespace ImageLinker

/-- The character that asks for its neighbours to be joined. -/
def joiner : Char := '\u200d'

/-- A letter that merges with certain letters before it. -/
inductive Ligature.Letter where
  /-- An Arabic alef, which merges with a lam. -/
  | alef
  /-- A Hebrew lamed, which a joiner merges with an alef. -/
  | lamed
  /-- A Khmer letter, which a coeng moves below the letter before it. -/
  | subscript
  /-- A Buginese ya, which a joiner merges with a vowelled letter. -/
  | ya
  /-- A Buginese vowel sign before a joiner and a ya. -/
  | vowelledYa
  /-- A Tifinagh consonant, which a joiner of either kind merges with a consonant. -/
  | consonant
  /-- A Tifinagh joiner before a consonant. -/
  | joinedConsonant
  /-- A Lisu tone, which merges with another tone. -/
  | tone
  /-- The Old Turkic letter i, which a joiner merges with a consonant. -/
  | orkhonI
deriving DecidableEq, Repr

/-- The last letter of a ligature, and whether a joiner stands before it. -/
structure Ligature where
  letter : Ligature.Letter
  joined : Bool := false
deriving DecidableEq, Repr

namespace Ligature

/-- The ligature that a character may be the end of. -/
def ofChar? (c : Char) : Option Ligature :=
  if c = '\u05dc' then some { letter := .lamed }
  else if CharSet.alef.contains c then some { letter := .alef }
  else if CharSet.khmerSubscripts.contains c then some { letter := .subscript }
  else if c = '\u1a10' then some { letter := .ya }
  else if CharSet.tifinaghConsonants.contains c then some { letter := .consonant }
  else if CharSet.lisuSecondTones.contains c then some { letter := .tone }
  else if c.toNat = 0x10C03 then some { letter := .orkhonI }
  else none

/-- Reads the first letter of a ligature: the columns that it adds to those of the last letter, and
what is begun of a longer ligature. A letter that is drawn inside the columns of the other one takes
its own column back. -/
def merge? (l : Ligature) (c : Char) : Option (Int × Option Ligature) :=
  match l.letter with
  | .alef => if CharSet.lam.contains c then some (0, none) else none
  | .lamed => if l.joined && c = '\u05d0' then some (0, none) else none
  | .subscript => if c = '\u17d2' then some (-1, none) else none
  | .ya => if l.joined && c = '\u1a17' then some (0, some { letter := .vowelledYa }) else none
  | .vowelledYa => if c = '\u1a15' then some (0, none) else none
  | .consonant =>
    if c = '\u2d7f' then some (1, some { letter := .joinedConsonant })
    else if l.joined && CharSet.tifinaghConsonants.contains c then some (0, none)
    else none
  | .joinedConsonant => if CharSet.tifinaghConsonants.contains c then some (-1, none) else none
  | .tone => if CharSet.lisuFirstTones.contains c then some (0, none) else none
  | .orkhonI => if l.joined && c.toNat = 0x10C32 then some (0, none) else none

/-- Reads a character that may stand between the letters of a ligature. Arabic letters join over
every character without columns that is not obstructive, and a joiner is. -/
def pass? (l : Ligature) (c : Char) : Option Ligature :=
  if l.letter = .alef then
    if CharSet.zeroWidth.contains c && !CharSet.obstructive.contains c then some l else none
  else if c = joiner then some { l with joined := true }
  else if CharSet.ignorableMarks.contains c then some l
  else none

/-- Reads the character before a ligature: the columns that it adds, and what is left to be read.
There is no answer for a character that does not concern the ligature. -/
def before? (l : Ligature) (c : Char) : Option (Int × Option Ligature) :=
  match l.pass? c with
  | some l => some (0, some l)
  | none => l.merge? c

end Ligature

end ImageLinker
