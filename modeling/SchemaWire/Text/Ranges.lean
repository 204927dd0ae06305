/-! Sets of characters, written as runs of code points. -/

set_option autoImplicit false

namespace SchemaWire.Text

/-- Whether a character lies in one of the runs, each given by its first and its last code point. -/
def inRanges (ranges : List (Nat × Nat)) (c : Char) : Bool :=
  ranges.any fun (first, last) => first ≤ c.toNat && c.toNat ≤ last

end SchemaWire.Text
