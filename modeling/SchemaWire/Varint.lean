import SchemaWire.Bytes

/-! Variable-length integers: one length byte, then that many big-endian bytes with no zero in
front.

The length byte ends the number before the next byte is looked at, so varints can be written one
after another, and the ban on leading zeros leaves each number a single form.
-/

set_option autoImplicit false

namespace SchemaWire.Varint

def maxLength : Nat := 255

inductive Refusal where
  | missingLength
  | truncated (needed present : Nat)
  | leadingZero
  | wide
  | lengthBeyond (length remaining : Nat)
  deriving DecidableEq, Repr

def Refusal.message : Refusal → String
  | .missingLength => "missing length byte"
  | .truncated needed present => s!"truncated: need {needed} bytes, have {present}"
  | .leadingZero => "non-minimal encoding"
  | .wide => "value exceeds 64 bits"
  | .lengthBeyond length remaining => s!"length prefix {length} exceeds remaining {remaining} bytes"

/-- A number whose minimal form has more bytes than a length byte can announce. -/
structure TooLong where
  length : Nat
  deriving DecidableEq, Repr

def encode (n : Nat) : Except TooLong Bytes :=
  let digits := Bytes.ofNat n
  if digits.length ≤ maxLength then .ok (UInt8.ofNat digits.length :: digits)
  else .error ⟨digits.length⟩

/-- Append a number to a buffer: the length byte and then the digits. A number that is too long
leaves the buffer as it is. -/
def put (n : Nat) (buffer : Bytes) : Except TooLong Unit × Bytes :=
  let digits := Bytes.ofNat n
  if digits.length ≤ maxLength then
    (.ok (), buffer ++ [UInt8.ofNat digits.length] ++ digits)
  else (.error ⟨digits.length⟩, buffer)

def encodeWord (word : UInt64) : Bytes :=
  -- There are at most eight digits, so this cannot fail.
  let digits := (Bytes.ofWord word).stripZeros
  UInt8.ofNat digits.length :: digits

def putWord (word : UInt64) (buffer : Bytes) : Bytes :=
  let digits := (Bytes.ofWord word).stripZeros
  buffer ++ [UInt8.ofNat digits.length] ++ digits

/-- Cut the announced digits off the front, leaving them uninterpreted. -/
def popDigits : Bytes → Except Refusal (Bytes × Bytes)
  | [] => .error .missingLength
  | length :: rest =>
    match splitAt? length.toNat rest with
    | none => .error (.truncated length.toNat rest.length)
    | some (digits, rest) =>
      if digits.head? = some 0 then .error .leadingZero else .ok (digits, rest)

def pop (bytes : Bytes) : Except Refusal (Nat × Bytes) := do
  let (digits, rest) ← popDigits bytes
  return (digits.toNat, rest)

def popWord (bytes : Bytes) : Except Refusal (UInt64 × Bytes) := do
  let (digits, rest) ← popDigits bytes
  if digits.length > 8 then throw .wide else return (digits.toWord, rest)

/-- Read a length off the front. A length is a machine word. -/
def popLength (bytes : Bytes) : Except Refusal (Nat × Bytes) := do
  let (length, rest) ← popWord bytes
  return (length.toNat, rest)

def prefixed (payload : Bytes) : Bytes := encodeWord (UInt64.ofNat payload.length) ++ payload

def popPrefixed (bytes : Bytes) : Except Refusal (Bytes × Bytes) := do
  let (length, rest) ← popLength bytes
  match splitAt? length rest with
  | some cut => return cut
  | none => throw (.lengthBeyond length rest.length)

end SchemaWire.Varint
