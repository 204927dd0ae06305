import SchemaWire.Text.Width.Character

/-! Letters that are drawn as one.

A ligature is found from its end. Its last letter leaves an ending, and each character before it
either goes into the ligature, is passed over, or shows that there is none.
-/

set_option autoImplicit false

namespace SchemaWire.Text

/-- What the text after a character begins with, when that may end a ligature. An ending of the
Hebrew, Buginese, Tifinagh or Old Turkic script is joined once a joiner stands before it. -/
inductive LigatureEnd where
  | alef
  | lamed (joined : Bool)
  | ya (joined : Bool)
  /-- The Buginese vowel sign i with a joined ya after it. -/
  | joinedVowelYa
  | consonant (joined : Bool)
  /-- The joiner of Tifinagh consonants with a consonant after it. -/
  | joinerConsonant
  | toneLetter
  | orkhonI (joined : Bool)
  /-- A Khmer letter that has a form below another. -/
  | subscript
  | vowelE
  | vowelAi
  deriving DecidableEq, Repr

def alefRanges : List (Nat × Nat) := [
    (0x622, 0x623), (0x625, 0x625), (0x627, 0x627), (0x671, 0x673), (0x675, 0x675), (0x773, 0x774),
    (0x870, 0x882)]

def lamRanges : List (Nat × Nat) := [
    (0x644, 0x644), (0x6b5, 0x6b8), (0x76a, 0x76a), (0x8a6, 0x8a6), (0x8c7, 0x8c7)]

def tifinaghRanges : List (Nat × Nat) := [(0x2d31, 0x2d65), (0x2d6f, 0x2d6f)]

def subscriptRanges : List (Nat × Nat) := [
    (0x1780, 0x1782), (0x1784, 0x1787), (0x1789, 0x178c), (0x178e, 0x1793), (0x1795, 0x1798),
    (0x179b, 0x179d), (0x17a0, 0x17a0), (0x17a2, 0x17a2), (0x17a7, 0x17a7), (0x17ab, 0x17ac),
    (0x17af, 0x17af)]

def passedRanges : List (Nat × Nat) := [
    (0x34f, 0x34f), (0x17b4, 0x17b5), (0x180b, 0x180d), (0x180f, 0x180f), (0xfe00, 0xfe0f),
    (0xe0100, 0xe01ef)]

/-- First and last code points of the runs of characters that take no column and yet keep the
Arabic letters beside them apart. -/
def separatingRanges : List (Nat × Nat) := [
    (0x605, 0x605), (0x890, 0x891), (0x8e2, 0x8e2), (0x9be, 0x9be), (0x9d7, 0x9d7), (0xb3e, 0xb3e),
    (0xb57, 0xb57), (0xbbe, 0xbbe), (0xbd7, 0xbd7), (0xcc0, 0xcc0), (0xcc2, 0xcc2), (0xcc7, 0xcc8),
    (0xcca, 0xccb), (0xcd5, 0xcd6), (0xd3e, 0xd3e), (0xd4e, 0xd4e), (0xd57, 0xd57), (0xdcf, 0xdcf),
    (0xddf, 0xddf), (0x1160, 0x11ff), (0x1715, 0x1715), (0x1734, 0x1734), (0x180e, 0x180e),
    (0x1b35, 0x1b35), (0x1b3b, 0x1b3b), (0x1b3d, 0x1b3d), (0x1b43, 0x1b44), (0x1baa, 0x1baa),
    (0x1bf2, 0x1bf3), (0x200c, 0x200d), (0x2065, 0x2069), (0x302e, 0x302f), (0x3164, 0x3164),
    (0xa8fa, 0xa8fa), (0xa953, 0xa953), (0xa9c0, 0xa9c0), (0xd7b0, 0xd7c6), (0xd7cb, 0xd7fb),
    (0xffa0, 0xffa0), (0xfff0, 0xfff8), (0x111c0, 0x111c0), (0x111c2, 0x111c3), (0x11235, 0x11235),
    (0x1133e, 0x1133e), (0x1134d, 0x1134d), (0x11357, 0x11357), (0x113b8, 0x113b8),
    (0x113c2, 0x113c2), (0x113c5, 0x113c5), (0x113c7, 0x113c9), (0x113cf, 0x113cf),
    (0x113d1, 0x113d1), (0x114b0, 0x114b0), (0x114bd, 0x114bd), (0x115af, 0x115af),
    (0x116b6, 0x116b6), (0x11930, 0x11930), (0x1193d, 0x1193d), (0x1193f, 0x1193f),
    (0x11941, 0x11941), (0x11a84, 0x11a89), (0x11d46, 0x11d46), (0x11f02, 0x11f02),
    (0x11f41, 0x11f41), (0x16ff0, 0x16ff1), (0x1d165, 0x1d166), (0x1d16d, 0x1d172),
    (0xe0000, 0xe0000), (0xe0002, 0xe001f), (0xe0080, 0xe00ff), (0xe01f0, 0xe0fff)]

def isTransparent (c : Char) : Bool := columnsAlone c == 0 && !inRanges separatingRanges c

namespace LigatureEnd

def ofChar? (c : Char) : Option LigatureEnd :=
  match c.toNat with
  | 0x5dc => some (.lamed false)
  | 0x1a10 => some (.ya false)
  | 0xa4fc | 0xa4fd => some .toneLetter
  | 0x10c03 => some (.orkhonI false)
  | 0x16d67 => some .vowelE
  | 0x16d68 => some .vowelAi
  | _ =>
    if inRanges alefRanges c then some .alef
    else if inRanges subscriptRanges c then some .subscript
    else if inRanges tifinaghRanges c then some (.consonant false)
    else none

/-- Whether the ending stays in place when a character is passed over. The vowel signs of Kirat Rai
have to follow each other at once. -/
def isOpen : LigatureEnd → Bool
  | .vowelE | .vowelAi => false
  | _ => true

def join : LigatureEnd → LigatureEnd
  | .lamed _ => .lamed true
  | .ya _ => .ya true
  | .consonant _ => .consonant true
  | .orkhonI _ => .orkhonI true
  | ending => ending

def pass? (ending : LigatureEnd) (c : Char) : Option LigatureEnd :=
  if ending = .alef then
    if isTransparent c then some ending else none
  else if !ending.isOpen then none
  else if isJoiner c then some ending.join
  else if inRanges passedRanges c then some ending
  else none

/-- The columns that a character adds by going into the ligature, and the ending that is left. A
sign that turns the letter after it into a part of the letter before it takes back a column. -/
def take? (ending : LigatureEnd) (c : Char) : Option (Int × Option LigatureEnd) :=
  match ending, c.toNat with
  | .lamed true, 0x5d0 => some (0, none)
  | .subscript, 0x17d2 => some (-1, none)
  | .ya true, 0x1a17 => some (0, some .joinedVowelYa)
  | .joinedVowelYa, 0x1a15 => some (0, none)
  | .orkhonI true, 0x10c32 => some (0, none)
  | .vowelE, 0x16d63 | .vowelE, 0x16d69 | .vowelAi, 0x16d63 => some (0, none)
  | .vowelE, 0x16d67 => some (0, some .vowelAi)
  | .vowelE, 0x16d68 => some (1, some .vowelE)
  | .consonant _, 0x2d7f => some (1, some .joinerConsonant)
  | .consonant true, _ => if inRanges tifinaghRanges c then some (0, none) else none
  | .joinerConsonant, _ => if inRanges tifinaghRanges c then some (-1, none) else none
  | .alef, _ => if inRanges lamRanges c then some (0, none) else none
  | .toneLetter, code => if 0xa4f8 ≤ code && code ≤ 0xa4fb then some (0, none) else none
  | _, _ => none

end LigatureEnd

end SchemaWire.Text
