import ImageLinker.Text.CharSet.Emoji
import ImageLinker.Text.Ligature

/-!
# Emoji sequences

Several characters can make up one emoji of two columns: a person with a tone of skin, two letters
of a flag, a key with its digit, a flag with the tags of its region, and any of these chained by
joiners. In a text that is read from its end, the state of a sequence is what has been read of it.
-/

namespace ImageLinker

/-- What an emoji sequence ends with, from the character that was read last. -/
inductive Emoji where
  /-- A whole emoji, whose columns are counted. -/
  | whole
  /-- A tone of skin, whose columns are counted. -/
  | modifier
  /-- Letters of flags. -/
  | flag (letters : Nat)
  /-- A joiner and a whole emoji. -/
  | joined
  /-- The frame of a key, a joiner and a whole emoji. -/
  | keycap
  /-- Letters of flags, a joiner and a whole emoji. -/
  | joinedFlag (letters : Nat)
  /-- Tags of a region up to their end, a joiner and a whole emoji. -/
  | tags (digits letters : Nat)
deriving DecidableEq, Repr

namespace Emoji

/-- What a character ends a sequence with, if it is part of an emoji. -/
def ofChar? (c : Char) : Option Emoji :=
  if CharSet.flagLetters.contains c then some (.flag 1)
  else if CharSet.modifiers.contains c then some .modifier
  else if CharSet.emoji.contains c then some .whole
  else none

/-- Whether tags name a region: three digits and at most four letters, or three to six letters. -/
def isRegion (digits letters : Nat) : Bool :=
  (digits = 3 && letters ≤ 4) || (digits = 0 && 3 ≤ letters && letters ≤ 6)

/-- The columns of letters of flags before a joiner. Letters spell flags from the front: of an even
number the last two are a flag that is part of the joined emoji, of an odd number the last one
stands alone. -/
def joinedFlagColumns (letters : Nat) : Int :=
  if letters % 2 = 0 then letters - 2 else letters

/-- Reads the character before a joiner and an emoji. A part of the same emoji adds no columns. -/
def beforeJoiner? (c : Char) : Option (Int × Emoji) :=
  if c = '\u20e3' then some (0, .keycap)
  else if c.toNat = 0xE007F then some (0, .tags 0 0)
  else if CharSet.flagLetters.contains c then some (joinedFlagColumns 1, .joinedFlag 1)
  else if CharSet.modifiers.contains c then some (0, .modifier)
  else if CharSet.emoji.contains c then some (0, .whole)
  else none

/-- Reads the character before a part of an emoji: the columns that it adds, and what has been read
then. There is no answer for a character that does not concern the emoji. -/
def before? (e : Emoji) (c : Char) : Option (Int × Emoji) :=
  match e with
  | .whole => if c = joiner then some (0, .joined) else none
  | .modifier =>
    if CharSet.modifiable.contains c then some (0, .whole)
    else if c = joiner then some (0, .joined)
    else none
  | .flag letters =>
    if CharSet.flagLetters.contains c then some (1, .flag (letters + 1))
    else if c = joiner && 2 ≤ letters then some (0, .joined)
    else none
  | .joined => beforeJoiner? c
  | .keycap => none
  | .joinedFlag letters =>
    if CharSet.flagLetters.contains c then
      some (joinedFlagColumns (letters + 1) - joinedFlagColumns letters, .joinedFlag (letters + 1))
    else if c = joiner && 2 ≤ letters then some (0, .joined)
    else none
  | .tags digits letters =>
    if digits = 0 && CharSet.tagLetters.contains c then some (0, .tags 0 (letters + 1))
    else if CharSet.tagDigits.contains c then some (0, .tags (digits + 1) letters)
    else if c = '🏴' && isRegion digits letters then some (0, .whole)
    else none

end Emoji

end ImageLinker
