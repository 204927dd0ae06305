import SchemaWire.Bytes
import SchemaWire.Stream.Error

/-! Streams that bytes are read from.

A stream is a schedule of what it will do: hand out bytes, fail, or report its end. Bytes are handed
out over as many reads as it takes, and no read crosses from one event into the next.
-/

set_option autoImplicit false

namespace SchemaWire

inductive ReadEvent where
  | data (bytes : Bytes)
  | failure (error : IoError)
  | ending
  deriving DecidableEq, Repr

structure Source where
  /-- The bytes not yet read of the event begun last. -/
  current : Bytes
  events : List ReadEvent
  deriving DecidableEq, Repr

namespace Source

def ofBytes (bytes : Bytes) : Source := ⟨bytes, []⟩

def size (source : Source) : Nat :=
  source.events.foldl
    (fun size event =>
      match event with
      | .data bytes => size + bytes.length
      | _ => size)
    source.current.length

/-- Begin the next event that is not an empty piece of data, and read at most `count` bytes. -/
def readNext (count : Nat) : List ReadEvent → Except IoError Bytes × Source
  | [] => (.ok [], ⟨[], []⟩)
  | .data [] :: events => readNext count events
  | .data (byte :: bytes) :: events =>
    (.ok ((byte :: bytes).take count), ⟨(byte :: bytes).drop count, events⟩)
  | .failure error :: events => (.error error, ⟨[], events⟩)
  | .ending :: events => (.ok [], ⟨[], events⟩)

/-- Read once. At most `count` bytes are taken, and none at the end of the stream. -/
def read (count : Nat) (source : Source) : Except IoError Bytes × Source :=
  match source with
  | ⟨[], events⟩ => readNext count events
  | ⟨byte :: bytes, events⟩ =>
    (.ok ((byte :: bytes).take count), ⟨(byte :: bytes).drop count, events⟩)

def after (front : Bytes) (outcome : Except IoError Bytes × Source) :
    Except IoError Bytes × Source :=
  (outcome.1.map (front ++ ·), outcome.2)

/-- Read on until there are `count` bytes. Reading is tried again when it is interrupted. When it
fails, the bytes already taken are lost. -/
def fillFrom (count : Nat) (current : Bytes) (events : List ReadEvent) :
    Except IoError Bytes × Source :=
  match splitAt? count current with
  | some (front, rest) => (.ok front, ⟨rest, events⟩)
  | none =>
    let missing := count - current.length
    match events with
    | [] => (.error .closed, ⟨[], []⟩)
    | .data bytes :: events => after current (fillFrom missing bytes events)
    | .failure error :: events =>
      if error.interruptsReading then after current (fillFrom missing [] events)
      else (.error (if error.kind = .unexpectedEof then .closed else error), ⟨[], events⟩)
    | .ending :: events => (.error .closed, ⟨[], events⟩)
termination_by structural events

def fill (count : Nat) (source : Source) : Except IoError Bytes × Source :=
  fillFrom count source.current source.events

end Source

end SchemaWire
