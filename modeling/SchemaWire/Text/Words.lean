/-! Cutting text into lines and into words.

Words are separated by the characters of the Unicode property `White_Space`.
-/

set_option autoImplicit false

namespace SchemaWire.Text

def isBlank (c : Char) : Bool :=
  let n := c.toNat
  (0x9 ≤ n && n ≤ 0xd) || n == 0x20 || n == 0x85 || n == 0xa0 || n == 0x1680
    || (0x2000 ≤ n && n ≤ 0x200a) || n == 0x2028 || n == 0x2029 || n == 0x202f || n == 0x205f
    || n == 0x3000

/-- The pieces between the characters that satisfy `separates`, empty ones included. There is one
piece more than there are separators. -/
def pieces (separates : Char → Bool) : List Char → List (List Char)
  | [] => [[]]
  | c :: rest =>
    if separates c then [] :: pieces separates rest
    else
      match pieces separates rest with
      | [] => [[c]]
      | piece :: later => (c :: piece) :: later

def lines (text : List Char) : List (List Char) := pieces (· == '\n') text

def words (text : List Char) : List (List Char) := (pieces isBlank text).filter (!·.isEmpty)

theorem pieces_ne_nil (separates : Char → Bool) (text : List Char) :
    pieces separates text ≠ [] := by
  cases text with
  | nil => simp [pieces]
  | cons c rest =>
    unfold pieces
    split
    · simp
    · split <;> simp

end SchemaWire.Text
