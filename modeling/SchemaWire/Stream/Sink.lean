import SchemaWire.Bytes
import SchemaWire.Stream.Error

/-! Streams that bytes are written to.

A stream is a schedule of how it will answer writes and flushes, and the record of what it took.
When the schedule is over, every write is taken whole and every flush succeeds.
-/

set_option autoImplicit false

namespace SchemaWire

inductive WriteEvent where
  /-- Take at most this many bytes. -/
  | accept (count : Nat)
  | failure (error : IoError)
  deriving DecidableEq, Repr

inductive FlushEvent where
  | success
  | failure (error : IoError)
  deriving DecidableEq, Repr

structure Sink where
  writes : List WriteEvent
  flushes : List FlushEvent
  received : Bytes
  /-- How many flushes have succeeded. -/
  flushed : Nat
  deriving DecidableEq, Repr

namespace Sink

def willing : Sink := ⟨[], [], [], 0⟩

/-- What becomes of writing bytes against a schedule: the outcome, the bytes taken, and what is left
of the schedule. -/
def writeAgainst (bytes : Bytes) : List WriteEvent → Except IoError Unit × Bytes × List WriteEvent
  | [] => (.ok (), bytes, [])
  | event :: events =>
    if bytes.isEmpty then (.ok (), [], event :: events)
    else
      match event with
      | .accept 0 => (.error .stalled, [], events)
      | .accept count =>
        let (outcome, taken, events) := writeAgainst (bytes.drop count) events
        (outcome, bytes.take count ++ taken, events)
      | .failure error =>
        if error.interruptsWriting then writeAgainst bytes events else (.error error, [], events)

/-- Write on until all bytes are taken. Writing is tried again when it is interrupted or would
block, and a write that takes nothing fails. -/
def writeAll (bytes : Bytes) (sink : Sink) : Except IoError Unit × Sink :=
  let (outcome, taken, writes) := writeAgainst bytes sink.writes
  (outcome, { sink with writes, received := sink.received ++ taken })

def flushAgainst : List FlushEvent → Except IoError Unit × List FlushEvent
  | [] => (.ok (), [])
  | .success :: events => (.ok (), events)
  | .failure error :: events =>
    if error.interruptsWriting then flushAgainst events else (.error error, events)

def flush (sink : Sink) : Except IoError Unit × Sink :=
  match flushAgainst sink.flushes with
  | (.ok (), flushes) => (.ok (), { sink with flushes, flushed := sink.flushed + 1 })
  | (.error error, flushes) => (.error error, { sink with flushes })

end Sink

end SchemaWire
