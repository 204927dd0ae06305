import SchemaWire.Codec.Encode
import SchemaWire.Frame.Compression
import SchemaWire.Frame.Message
import SchemaWire.Stream.Sink

/-! Writing messages to a stream.

A message is written whole and then flushed. One that is refused, because its payload is too large
or cannot be encoded, leaves the stream untouched.
-/

set_option autoImplicit false

namespace SchemaWire

namespace Sink

def writeFlushed (frame : Bytes) (sink : Sink) : Except FrameError Unit × Sink :=
  match sink.writeAll frame with
  | (.ok (), sink) =>
    let (outcome, sink) := sink.flush
    (outcome.mapError .writeFailed, sink)
  | (.error cause, sink) => (.error (.writeFailed cause), sink)

/-- Write a payload as one message, from a buffer of its own and under the default limit. -/
def writeMessage (payload : Bytes) (sink : Sink) : Except FrameError Unit × Sink :=
  if payload.length ≤ Message.defaultLimit.toNat then
    sink.writeFlushed (Message.append payload [])
  else (.error (.payloadTooLarge payload.length Message.defaultLimit), sink)

def sendValue (codec : Codec) (type : String) (value : Value) (sink : Sink) :
    Except FrameError Unit × Sink :=
  match codec.encode type value with
  | .ok payload => sink.writeMessage payload
  | .error cause => (.error (.codec cause), sink)

end Sink

structure Writer where
  sink : Sink
  /-- Where frames are put together. It keeps the last frame until the next send. -/
  buffer : Bytes
  limit : UInt64
  deriving DecidableEq, Repr

namespace Writer

def setLimit (limit : UInt64) (writer : Writer) : Writer := { writer with limit }

def clear (writer : Writer) : Writer := { writer with buffer := [] }

def append (payload : Bytes) (writer : Writer) : Writer :=
  { writer with buffer := Message.append payload writer.buffer }

def writeBuffer (writer : Writer) : Except FrameError Unit × Writer :=
  let (outcome, sink) := writer.sink.writeFlushed writer.buffer
  (outcome, { writer with sink })

def flush (writer : Writer) : Except FrameError Unit × Writer :=
  let (outcome, sink) := writer.sink.flush
  (outcome.mapError .writeFailed, { writer with sink })

/-- Write a payload as one message. The limit holds for the payload as it goes on the wire. -/
def write (mode : Compression) (payload : Bytes) (writer : Writer) :
    Except FrameError Unit × Writer :=
  let payload := mode.apply payload
  if payload.length ≤ writer.limit.toNat then (writer.clear.append payload).writeBuffer
  else (.error (.payloadTooLarge payload.length writer.limit), writer)

def sendValue (codec : Codec) (type : String) (value : Value) (writer : Writer) :
    Except FrameError Unit × Writer :=
  match codec.encode type value with
  | .ok payload => writer.write .none payload
  | .error cause => (.error (.codec cause), writer)

end Writer

end SchemaWire
