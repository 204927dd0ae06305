import SchemaWire.Text.Width.Emoji
import SchemaWire.Text.Width.Ligature

/-! How many columns text takes when it is shown in a grid.

Most characters take the columns that they take alone. What comes after a character can change
that: a variation selector asks for another form of it, and it can be drawn as one with the
characters after it. So text is measured from its end.
-/

set_option autoImplicit false

namespace SchemaWire.Text

inductive Form where
  /-- A quotation mark as wide as an ideograph. -/
  | wide
  | text
  | emoji
  deriving DecidableEq, Repr

def Form.ofSelector? (c : Char) : Option Form :=
  match c.toNat with
  | 0xfe01 => some .wide
  | 0xfe0e => some .text
  | 0xfe0f => some .emoji
  | _ => none

/-- What the text after a character begins with, as far as that can change the columns of the
character. -/
inductive Ending where
  | plain
  | ligature (ending : LigatureEnd)
  | emoji (ending : EmojiEnd)
  deriving DecidableEq, Repr

namespace Ending

def ofChar (c : Char) : Ending :=
  if c.toNat < 0x7f then .plain
  else
    match LigatureEnd.ofChar? c, EmojiEnd.ofChar? c with
    | some ending, _ => .ligature ending
    | none, some ending => .emoji ending
    | none, none => .plain

def select (ending : Ending) (form : Form) : Ending :=
  match ending with
  | .ligature ending => if ending.isOpen then .ligature ending else .plain
  | .emoji ending => if form = .emoji ∧ ending.takesForm then .emoji ending else .plain
  | .plain => .plain

/-- What is left of an ending once a character without a form as emoji stands before a selector
that asks for one. -/
def dropEmoji : Ending → Ending
  | .emoji _ => .plain
  | ending => ending

def take? (ending : Ending) (c : Char) : Option (Int × Ending) :=
  match ending with
  | .plain => none
  | .emoji ending => (ending.take? c).map fun (columns, left) => (columns, .emoji left)
  | .ligature ending =>
    match ending.pass? c with
    | some left => some (0, .ligature left)
    | none => (ending.take? c).map fun (columns, left) => (columns, left.elim .plain .ligature)

end Ending

/-- The columns of some text, and what it begins with: a selector, if `form` is there, and after
it the ending. -/
structure Measure where
  width : Int
  form : Option Form
  ending : Ending
  deriving DecidableEq, Repr

namespace Measure

def empty : Measure := ⟨0, none, .plain⟩

def add (measure : Measure) (columns : Int) (ending : Ending) : Measure :=
  ⟨measure.width + columns, none, ending⟩

def addPlain (measure : Measure) (ending : Ending) (c : Char) : Measure :=
  match Form.ofSelector? c with
  | some form => ⟨measure.width, some form, ending.select form⟩
  | none =>
    match ending.take? c with
    | some (columns, left) => measure.add columns left
    | none => measure.add (columnsAlone c) (.ofChar c)

def isQuotationMark (c : Char) : Bool :=
  c.toNat == 0x2018 || c.toNat == 0x2019 || c.toNat == 0x201c || c.toNat == 0x201d

def push (c : Char) (measure : Measure) : Measure :=
  match measure.form with
  | none => measure.addPlain measure.ending c
  | some .wide =>
    if isQuotationMark c then measure.add 2 .plain else measure.addPlain measure.ending c
  | some .text =>
    if hasNarrowForm c then measure.add 1 .plain else measure.addPlain measure.ending c
  | some .emoji =>
    if hasEmojiForm c then
      match measure.ending with
      | .emoji _ => measure.add 0 (.emoji .emoji)
      | _ => measure.add 2 (.emoji .emoji)
    else measure.addPlain measure.ending.dropEmoji c

end Measure

def measure (line : List Char) : Measure := line.foldr Measure.push .empty

def columns (line : List Char) : Nat := (measure line).width.toNat

end SchemaWire.Text
