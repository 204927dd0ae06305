import SchemaWire.Frame.Error

/-! Messages: a payload behind its size.

A message is one byte that says how long the count is, the count itself, and as many bytes of
payload as it counts. The count is written without zero bytes in front, so an empty payload takes
one byte, but counts with such zeros are read.
-/

set_option autoImplicit false

namespace SchemaWire.Message

def defaultLimit : UInt64 := 16 * 1024 * 1024

def append (payload buffer : Bytes) : Bytes :=
  let count := (Bytes.ofWord (UInt64.ofNat payload.length)).stripZeros
  buffer ++ UInt8.ofNat count.length :: (count ++ payload)

def encode (payload : Bytes) : Bytes := append payload []

def countLength (first : UInt8) : Except FrameError Nat :=
  if first.toNat ≤ maxCountLength then .ok first.toNat else .error (.countTooBig first.toNat)

def payloadSize (limit : UInt64) (count : Bytes) : Except FrameError Nat :=
  let size := count.toWord
  if size ≤ limit then .ok size.toNat else .error (.payloadTooLarge size.toNat limit)

/-- The payload of the message that a buffer begins with and the rest of the buffer, or nothing if
the message is not complete. The sizes of header and payload are added in a machine word, and it is
a panic when the sum does not fit. -/
def split? (limit : UInt64) (buffer : Bytes) : Except Halt (Option (Bytes × Bytes)) :=
  match buffer with
  | [] => .ok none
  | first :: rest => do
    let length ← (countLength first).mapError .failed
    match splitAt? length rest with
    | none => return none
    | some (count, rest) =>
      let size ← (payloadSize limit count).mapError .failed
      if 1 + length + size < UInt64.size then return splitAt? size rest
      else throw .panic

/-- Take a message off the front of a buffer. Without a complete message the buffer stays as it is.
-/
def pop (limit : UInt64) (buffer : Bytes) : Except Halt (Option Bytes) × Bytes :=
  match split? limit buffer with
  | .error halt => (.error halt, buffer)
  | .ok none => (.ok none, buffer)
  | .ok (some (payload, rest)) => (.ok (some payload), rest)

end SchemaWire.Message
