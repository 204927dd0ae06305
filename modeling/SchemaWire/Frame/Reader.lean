import SchemaWire.Codec.Decode
import SchemaWire.Frame.Compression
import SchemaWire.Frame.Message
import SchemaWire.Stream.Source

/-! Reading messages from a stream.

A read takes exactly one message and nothing behind it. A payload that does not decode has been read
all the same.
-/

set_option autoImplicit false

namespace SchemaWire

/-- The most bytes that can be allocated at once on a machine of 64 bits. -/
def maxAllocation : Nat := 0x7fffffffffffffff

/-- Make room for a payload. That there is so much memory is taken for granted. -/
def allocate (size : Nat) : Except Halt Unit :=
  if size ≤ maxAllocation then .ok () else .error .panic

namespace Source

def take (count : Nat) (source : Source) : Except Halt Bytes × Source :=
  let (outcome, source) := source.fill count
  (outcome.mapError fun cause => .failed (.readFailed cause), source)

def andThen {α β : Type} (first : Except Halt α × Source)
    (next : α → Source → Except Halt β × Source) : Except Halt β × Source :=
  match first with
  | (.ok a, source) => next a source
  | (.error halt, source) => (.error halt, source)

/-- Read a message, with room made for its payload before any of it is read. -/
def readFramed (limit : UInt64) (source : Source) : Except Halt Bytes × Source :=
  andThen (source.take 1) fun first source =>
    andThen ((Message.countLength (first.headD 0)).mapError .failed, source) fun length source =>
      andThen (source.take length) fun count source =>
        andThen ((Message.payloadSize limit count).mapError .failed, source) fun size source =>
          andThen (allocate size, source) fun () source => source.take size

theorem mapError_ne_panic {ε α : Type} (outcome : Except ε α) (name : ε → FrameError) :
    outcome.mapError (fun error => .failed (name error)) ≠ .error Halt.panic := by
  intro same
  cases outcome with
  | ok a => cases same
  | error error => cases same

theorem andThen_ne_panic {α β : Type} {first : Except Halt α × Source}
    {next : α → Source → Except Halt β × Source} (start : first.1 ≠ .error .panic)
    (later : ∀ a source, first = (.ok a, source) → (next a source).1 ≠ .error .panic) :
    (andThen first next).1 ≠ .error .panic := by
  obtain ⟨outcome, source⟩ := first
  cases outcome with
  | ok a => exact later a source rfl
  | error halt =>
    intro same
    cases same
    exact start rfl

/-- There is room for all that a limit lets through unless the limit is greater. -/
theorem readFramed_ne_panic {limit : UInt64} (bounded : limit.toNat ≤ maxAllocation)
    (source : Source) : (source.readFramed limit).1 ≠ .error .panic := by
  refine andThen_ne_panic (mapError_ne_panic _ _) fun first source _ => ?_
  refine andThen_ne_panic (mapError_ne_panic _ id) fun length source _ => ?_
  refine andThen_ne_panic (mapError_ne_panic _ _) fun count source _ => ?_
  refine andThen_ne_panic (mapError_ne_panic _ id) fun size source measured => ?_
  have room : size ≤ maxAllocation := by
    simp only [Message.payloadSize] at measured
    split at measured
    · rename_i small
      cases measured
      exact Nat.le_trans (UInt64.le_iff_toNat_le.1 small) bounded
    · cases measured
  rw [allocate, if_pos room]
  exact mapError_ne_panic _ _

def decodeRead (codec : Codec) (type : String) (outcome : Except Halt Bytes) : Except Halt Value :=
  outcome.bind fun payload =>
    (codec.decode type payload).mapError fun cause => .failed (.codec cause)

def readMessage (source : Source) : Except Halt Bytes × Source :=
  source.readFramed Message.defaultLimit

theorem readMessage_ne_panic (source : Source) : source.readMessage.1 ≠ .error .panic :=
  readFramed_ne_panic (by decide) source

def readValue (codec : Codec) (type : String) (source : Source) : Except Halt Value × Source :=
  let (outcome, source) := source.readMessage
  (decodeRead codec type outcome, source)

end Source

structure Reader where
  source : Source
  limit : UInt64

namespace Reader

def read (mode : Compression) (reader : Reader) : Except Halt Bytes × Reader :=
  let (outcome, source) := reader.source.readFramed reader.limit
  (outcome.map mode.restore, { reader with source })

def readValue (codec : Codec) (type : String) (reader : Reader) : Except Halt Value × Reader :=
  let (outcome, reader) := reader.read .none
  (Source.decodeRead codec type outcome, reader)

def setLimit (limit : UInt64) (reader : Reader) : Reader := { reader with limit }

end Reader

end SchemaWire
