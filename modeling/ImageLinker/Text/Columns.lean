import ImageLinker.Text.Emoji
import ImageLinker.Text.Style

/-!
# Display width

How many columns a line takes in a table. A control character counts as one column. A character can
take other columns beside its neighbours than alone, if they form a ligature or an emoji, and a
selector after a character can choose whether it is shown as text, in one column, or as emoji, in
two. A line is therefore measured from its end, character by character, each in view of what follows
it. Of a style sequence only the escape character takes a column.
-/

namespace ImageLinker.Columns

/-- The number of columns of a character that stands alone. The characters before the soft hyphen
all count one. -/
def ofChar (c : Char) : Nat :=
  if c.toNat < 0xAD then 1
  else if c = '\u17d8' then 3
  else if CharSet.zeroWidth.contains c then 0
  else if CharSet.wide.contains c then 2
  else 1

/-- Whether a character has no picture of its own. -/
def isControl (c : Char) : Bool :=
  c.toNat < 0x20 || (0x7F ≤ c.toNat && c.toNat < 0xA0)

/-- How a selector asks for the character before it to be shown. -/
inductive Presentation where
  | text
  | emoji
deriving DecidableEq, Repr

/-- The presentation that a character selects, if it is a selector. -/
def Presentation.ofSelector? (c : Char) : Option Presentation :=
  if c = '\ufe0e' then some .text
  else if c = '\ufe0f' then some .emoji
  else none

/-- Whether a character is shown as emoji by default, and as text takes one column. -/
def isNarrowAsText (c : Char) : Bool :=
  CharSet.selectable.contains c && CharSet.emoji.contains c &&
    !CharSet.ideographicEmoji.contains c

/-- What begins after a place in a line. -/
inductive Following where
  | ligature (l : Ligature)
  | emoji (e : Emoji)
  /-- Nothing that concerns the character before it. -/
  | other
deriving DecidableEq, Repr

namespace Following

/-- What a character begins when it stands alone. -/
def ofChar (c : Char) : Following :=
  match Ligature.ofChar? c, Emoji.ofChar? c with
  | some l, _ => .ligature l
  | none, some e => .emoji e
  | none, none => .other

/-- What a selector begins. A ligature goes on over it. A joined emoji that lacks its first character
goes on if that character is to be shown as emoji. -/
def afterSelector (selector : Presentation) : Following → Following
  | .ligature l => .ligature l
  | .emoji .joined => if selector = .emoji then .emoji .joined else .other
  | .emoji .keycap => if selector = .emoji then .emoji .keycap else .other
  | _ => .other

/-- What a selector begins for a character that it cannot apply to. -/
def afterIdleSelector : Following → Following
  | .ligature l => .ligature l
  | _ => .other

/-- Reads the character before a ligature or an emoji: the columns that it adds, and what begins with
it. There is no answer for a character that does not concern either. -/
def before? (following : Following) (c : Char) : Option (Int × Following) :=
  match following with
  | .ligature l => (l.before? c).map fun (columns, rest) => (columns, rest.elim .other .ligature)
  | .emoji e => (e.before? c).map fun (columns, rest) => (columns, .emoji rest)
  | .other => none

end Following

/-- What is known of a line after a place: whether a selector stands there, and what begins there. -/
structure Context where
  selector : Option Presentation := none
  following : Following := .other
deriving DecidableEq, Repr

/-- What begins after a character that a selector does not apply to. -/
def Context.unselected (context : Context) : Following :=
  match context.selector with
  | some _ => context.following.afterIdleSelector
  | none => context.following

/-- The columns of a character that is shown as emoji. A part of a joined emoji adds none. -/
def Context.emojiColumns (context : Context) : Int :=
  match context.following with
  | .emoji _ => 0
  | _ => 2

/-- The columns that a character adds to those of the text after it, and what is known then. -/
def measure (c : Char) (context : Context) : Int × Context :=
  if context.selector = some .emoji && CharSet.selectable.contains c then
    (context.emojiColumns, { following := .emoji .whole })
  else if c.toNat ≤ 0xA0 then (1, {})
  else if context.selector = some .text && isNarrowAsText c then (1, {})
  else
    match Presentation.ofSelector? c with
    | some selector =>
      (0, { selector, following := context.unselected.afterSelector selector })
    | none =>
      let (columns, following) :=
        (context.unselected.before? c).getD (ofChar c, Following.ofChar c)
      (columns, { following })

/-- Adds the columns of one more character in front. -/
def step (c : Char) (state : Int × Context) : Int × Context :=
  let (columns, context) := measure c state.2
  (state.1 + columns, context)

/-- The number of columns of a line in which style sequences are shown. -/
def unstyled (line : String) : Int :=
  (line.toList.foldr step (0, {})).1

/-- The number of characters of style sequences that would take columns of their own. -/
def hidden (line : String) : Nat :=
  (Style.characters line).countP fun c => !isControl c && 0 < ofChar c

/-- The number of columns of a line. -/
def ofLine (line : String) : Nat :=
  (unstyled line - hidden line).toNat

/-- Whether a line has no width, because its style sequences hold more characters than columns. The
letters of a ligature share a column, but each of them counts as hidden. -/
def isOverhidden (line : String) : Bool :=
  unstyled line < hidden line

end ImageLinker.Columns
