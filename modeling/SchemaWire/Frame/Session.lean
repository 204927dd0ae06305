import SchemaWire.Frame.Reader
import SchemaWire.Frame.Writer

/-! A writer and a reader at the two ends of a pipe that takes every byte. -/

set_option autoImplicit false

namespace SchemaWire

/-- What the writer's stream has received is the pipe: the reader takes its bytes from there. -/
structure Session where
  writer : Writer
  readLimit : UInt64
  deriving DecidableEq, Repr

namespace Session

def start (readLimit writeLimit : UInt64) : Session := ⟨⟨Sink.willing, [], writeLimit⟩, readLimit⟩

def pipe (session : Session) : Bytes := session.writer.sink.received

def setPipe (pipe : Bytes) (session : Session) : Session :=
  { session with writer.sink.received := pipe }

def reading {α : Type} (act : Reader → α × Reader) (session : Session) : α × Session :=
  let (outcome, reader) := act ⟨Source.ofBytes session.pipe, session.readLimit⟩
  (outcome, { session.setPipe reader.source.current with readLimit := reader.limit })

def writing {α : Type} (act : Writer → α × Writer) (session : Session) : α × Session :=
  let (outcome, writer) := act session.writer
  (outcome, { session with writer })

end Session

end SchemaWire
