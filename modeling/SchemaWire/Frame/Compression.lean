import SchemaWire.Bytes

/-! Leaving the zero bytes at the front of a payload off the wire. -/

set_option autoImplicit false

namespace SchemaWire

inductive Compression where
  | none
  /-- Drop zero bytes in front, and put back as many as fill up the last word. -/
  | stripZeros
  deriving DecidableEq, Repr

namespace Compression

def wordSize : Nat := 8

/-- Put zero bytes in front up to a whole number of words, of which there is at least one. -/
def fillWords (payload : Bytes) : Bytes :=
  if payload.isEmpty then List.replicate wordSize 0
  else
    let gap := (wordSize - payload.length % wordSize) % wordSize
    List.replicate gap 0 ++ payload

def apply : Compression → Bytes → Bytes
  | none, payload => payload
  | stripZeros, payload => payload.stripZeros

@[simp] theorem apply_none (payload : Bytes) : none.apply payload = payload := rfl

/-- The payload as it was before, up to the number of zero bytes in front. -/
def restore : Compression → Bytes → Bytes
  | none, payload => payload
  | stripZeros, payload => fillWords payload

theorem map_restore_none {ε : Type} (outcome : Except ε Bytes) :
    outcome.map none.restore = outcome := by
  cases outcome <;> rfl

end Compression

end SchemaWire
