import SchemaWire.Frame.Session
import SchemaWire.Proofs.Canonicity
import SchemaWire.Proofs.MessageFormat
import SchemaWire.Proofs.MessageWriting

/-! A writer and a reader at the two ends of a pipe are a queue of payloads.

The queue is the specification: it knows nothing of bytes on a pipe, or of the buffer that frames are
put together in. Each action takes a session that holds the messages of a queue to one that holds
those of the queue after the action, so whole runs do.
-/

set_option autoImplicit false

namespace SchemaWire

namespace Source

variable {limit : UInt64}

/-! ## Reading what was written -/

theorem take_ofBytes (front rest : Bytes) :
    (ofBytes (front ++ rest)).take front.length = (.ok front, ofBytes rest) := by
  have filled : (ofBytes (front ++ rest)).fill front.length = (.ok front, ofBytes rest) := by
    rw [fill, ofBytes, fillFrom.eq_def, splitAt?_append]
    rfl
  rw [take, filled]
  rfl

theorem readFramed_framed {payload message : Bytes} (framed : Message.Framed payload message)
    (small : payload.length ≤ limit.toNat) (room : payload.length ≤ maxAllocation)
    (rest : Bytes) :
    (ofBytes (message ++ rest)).readFramed limit = (.ok payload, ofBytes rest) := by
  obtain @⟨count, @⟨first, short, counted⟩, sized⟩ := framed
  have header := take_ofBytes [first] (count ++ (payload ++ rest))
  have behind := take_ofBytes count (payload ++ rest)
  have measured : Message.payloadSize limit count = .ok payload.length :=
    sized ▸ Message.payloadSize_of_toNat (counted ▸ short) (sized ▸ small)
  rw [List.singleton_append, List.length_singleton] at header
  rw [counted] at behind
  rw [List.cons_append, List.append_assoc]
  simp only [readFramed, header, andThen, List.headD_cons,
    Message.countLength_eq_ok_iff.2 ⟨rfl, short⟩, Outcome.mapError_ok, behind, measured, allocate,
    if_pos room, take_ofBytes]

theorem readFramed_encode {payload : Bytes} (small : payload.length ≤ limit.toNat)
    (room : payload.length ≤ maxAllocation) (rest : Bytes) :
    (ofBytes (Message.encode payload ++ rest)).readFramed limit = (.ok payload, ofBytes rest) :=
  readFramed_framed (Message.framed_encode (Nat.lt_of_le_of_lt small limit.toNat_lt)) small room rest

end Source

inductive Action where
  | write (mode : Compression) (payload : Bytes)
  | sendValue (codec : Codec) (type : String) (value : Value)
  | flush
  | read (mode : Compression)
  | readValue (codec : Codec) (type : String)
  | limitWrites (limit : UInt64)
  | limitReads (limit : UInt64)

inductive Response where
  | written (outcome : Except FrameError Unit)
  | payload (outcome : Except Halt Bytes)
  | value (outcome : Except Halt Value)
  | changed

def Action.run {State : Type} (perform : Action → State → Response × State) :
    List Action → State → List Response × State
  | [], state => ([], state)
  | action :: actions, state =>
    let (response, state) := perform action state
    let (responses, state) := run perform actions state
    (response :: responses, state)

def Session.perform (action : Action) (session : Session) : Response × Session :=
  match action with
  | .write mode payload => (session.writing (Writer.write mode payload)).map .written id
  | .sendValue codec type value =>
    (session.writing (Writer.sendValue codec type value)).map .written id
  | .flush => (session.writing Writer.flush).map .written id
  | .read mode => (session.reading (Reader.read mode)).map .payload id
  | .readValue codec type => (session.reading (Reader.readValue codec type)).map .value id
  | .limitWrites limit =>
    (session.writing fun writer => ((), writer.setLimit limit)).map (fun _ => .changed) id
  | .limitReads limit =>
    (session.reading fun reader => ((), reader.setLimit limit)).map (fun _ => .changed) id

/-! ## The queue -/

/-- Payloads on their way, the next one to arrive first. -/
structure Channel where
  queue : List Bytes
  readLimit : UInt64
  writeLimit : UInt64

namespace Channel

def send (payload : Bytes) (channel : Channel) : Except FrameError Unit × Channel :=
  if payload.length ≤ channel.writeLimit.toNat then
    (.ok (), { channel with queue := channel.queue ++ [payload] })
  else (.error (.payloadTooLarge payload.length channel.writeLimit), channel)

def receive (channel : Channel) : Except Halt Bytes × Channel :=
  match channel.queue with
  | [] => (.error (.failed (.readFailed .closed)), channel)
  | payload :: queue => (.ok payload, { channel with queue })

def perform (action : Action) (channel : Channel) : Response × Channel :=
  match action with
  | .write mode payload => (channel.send (mode.apply payload)).map .written id
  | .sendValue codec type value =>
    match codec.encode type value with
    | .ok payload => (channel.send payload).map .written id
    | .error cause => (.written (.error (.codec cause)), channel)
  | .flush => (.written (.ok ()), channel)
  | .read mode => channel.receive.map (fun outcome => .payload (outcome.map mode.restore)) id
  | .readValue codec type =>
    channel.receive.map (fun outcome => .value (Source.decodeRead codec type outcome)) id
  | .limitWrites limit => (.changed, { channel with writeLimit := limit })
  | .limitReads limit => (.changed, { channel with readLimit := limit })

/-- The payload at the head is within the limit of the reader, and no longer than anything can be
that is held in memory. -/
def HeadFits (channel : Channel) : Prop :=
  ∀ payload ∈ channel.queue.head?,
    payload.length ≤ channel.readLimit.toNat ∧ payload.length ≤ maxAllocation

def Allows (channel : Channel) : Action → Prop
  | .read _ => channel.HeadFits
  | .readValue _ _ => channel.HeadFits
  | _ => True

def AllowsAll : List Action → Channel → Prop
  | [], _ => True
  | action :: actions, channel =>
    channel.Allows action ∧ AllowsAll actions (channel.perform action).2

end Channel

/-- The pipe holds the messages of the queue, and takes every byte. -/
structure Session.Holds (session : Session) (channel : Channel) : Prop where
  pipe : session.pipe = channel.queue.flatMap Message.encode
  readLimit : session.readLimit = channel.readLimit
  writeLimit : session.writer.limit = channel.writeLimit
  writes : session.writer.sink.writes = []
  flushes : session.writer.sink.flushes = []

theorem Sink.writeFlushed_of_willing {sink : Sink} (writes : sink.writes = [])
    (flushes : sink.flushes = []) (frame : Bytes) :
    sink.writeFlushed frame = (.ok (), { sink with
      received := sink.received ++ frame
      flushed := sink.flushed + 1 }) := by
  obtain ⟨_, _, received, flushed⟩ := sink
  subst writes flushes
  rfl

namespace Session.Holds

variable {session : Session} {channel : Channel}

theorem start (readLimit writeLimit : UInt64) :
    Holds (.start readLimit writeLimit) ⟨[], readLimit, writeLimit⟩ :=
  ⟨rfl, rfl, rfl, rfl, rfl⟩

/-! ## One action -/

theorem write (holds : Holds session channel) (mode : Compression) (payload : Bytes) :
    (session.writing (Writer.write mode payload)).1 = (channel.send (mode.apply payload)).1 ∧
      Holds (session.writing (Writer.write mode payload)).2
        (channel.send (mode.apply payload)).2 := by
  by_cases small : (mode.apply payload).length ≤ channel.writeLimit.toNat
  · have sent := Sink.writeFlushed_of_willing holds.writes holds.flushes
      (Message.encode (mode.apply payload))
    rw [Session.writing, Writer.write_of_small (holds.writeLimit ▸ small), Channel.send,
      if_pos small]
    dsimp only
    rw [sent]
    refine ⟨rfl, ?_, holds.readLimit, holds.writeLimit, holds.writes, holds.flushes⟩
    rw [List.flatMap_append, List.flatMap_singleton, ← holds.pipe]
    rfl
  · rw [Session.writing, Writer.write, holds.writeLimit, if_neg small, Channel.send, if_neg small]
    exact ⟨rfl, holds⟩

theorem flush (holds : Holds session channel) :
    (session.writing Writer.flush).1 = .ok () ∧ Holds (session.writing Writer.flush).2 channel := by
  have flushed : session.writer.sink.flush =
      (.ok (), { session.writer.sink with flushed := session.writer.sink.flushed + 1 }) := by
    rw [Sink.flush, holds.flushes]
    simp only [Sink.flushAgainst, holds.flushes]
  simp only [Session.writing, Writer.flush, flushed]
  exact ⟨rfl, holds.pipe, holds.readLimit, holds.writeLimit, holds.writes, holds.flushes⟩

theorem read (holds : Holds session channel) (fits : channel.HeadFits) (mode : Compression) :
    (session.reading (Reader.read mode)).1 = channel.receive.1.map mode.restore ∧
      Holds (session.reading (Reader.read mode)).2 channel.receive.2 := by
  obtain ⟨queue, readLimit, writeLimit⟩ := channel
  simp only [Session.reading, Reader.read, holds.pipe, holds.readLimit]
  cases queue with
  -- Nothing comes from an empty pipe, and nothing is lost.
  | nil => exact ⟨rfl, rfl, rfl, holds.writeLimit, holds.writes, holds.flushes⟩
  | cons payload queue =>
    -- The reader takes the first message and leaves the others as they are.
    obtain ⟨small, room⟩ := fits payload rfl
    rw [List.flatMap_cons, Source.readFramed_encode small room]
    exact ⟨rfl, rfl, rfl, holds.writeLimit, holds.writes, holds.flushes⟩

theorem readValue (holds : Holds session channel) (fits : channel.HeadFits) (codec : Codec)
    (type : String) :
    (session.reading (Reader.readValue codec type)).1 =
        Source.decodeRead codec type channel.receive.1 ∧
      Holds (session.reading (Reader.readValue codec type)).2 channel.receive.2 := by
  obtain ⟨outcome, after⟩ := holds.read fits .none
  rw [Compression.map_restore_none] at outcome
  exact ⟨congrArg (Source.decodeRead codec type) outcome, after⟩

theorem perform (holds : Holds session channel) {action : Action}
    (allowed : channel.Allows action) :
    (session.perform action).1 = (channel.perform action).1 ∧
      Holds (session.perform action).2 (channel.perform action).2 := by
  -- Only actions that move a payload touch the pipe; the others are the same on both sides.
  cases action with
  | write mode payload =>
    obtain ⟨outcome, after⟩ := holds.write mode payload
    exact ⟨congrArg Response.written outcome, after⟩
  | sendValue codec type value =>
    cases encoded : codec.encode type value with
    | ok payload =>
      -- An encoded value goes the way of a payload without compression.
      have same : Writer.sendValue codec type value = Writer.write .none payload := by
        funext writer
        simp only [Writer.sendValue, encoded]
      obtain ⟨outcome, after⟩ := holds.write .none payload
      simp only [Session.perform, same, Channel.perform, encoded]
      exact ⟨congrArg Response.written outcome, after⟩
    | error cause =>
      simp only [Session.perform, Session.writing, Writer.sendValue, encoded, Channel.perform]
      exact ⟨rfl, holds⟩
  | flush =>
    obtain ⟨outcome, after⟩ := holds.flush
    exact ⟨congrArg Response.written outcome, after⟩
  | read mode =>
    obtain ⟨outcome, after⟩ := holds.read allowed mode
    exact ⟨congrArg Response.payload outcome, after⟩
  | readValue codec type =>
    obtain ⟨outcome, after⟩ := holds.readValue allowed codec type
    exact ⟨congrArg Response.value outcome, after⟩
  | limitWrites limit =>
    exact ⟨rfl, holds.pipe, holds.readLimit, rfl, holds.writes, holds.flushes⟩
  | limitReads limit =>
    exact ⟨rfl, holds.pipe, rfl, holds.writeLimit, holds.writes, holds.flushes⟩

/-! ## Whole runs -/

theorem run (holds : Holds session channel) {actions : List Action}
    (allowed : Channel.AllowsAll actions channel) :
    (Action.run Session.perform actions session).1 =
        (Action.run Channel.perform actions channel).1 ∧
      Holds (Action.run Session.perform actions session).2
        (Action.run Channel.perform actions channel).2 := by
  -- What is allowed later is said of the queue after the first action, which the pipe then holds.
  induction actions generalizing session channel with
  | nil => exact ⟨rfl, holds⟩
  | cons action actions ih =>
    obtain ⟨first, later⟩ := allowed
    obtain ⟨response, after⟩ := holds.perform first
    obtain ⟨responses, ending⟩ := ih after later
    simp only [Action.run]
    exact ⟨by rw [response, responses], ending⟩

end Session.Holds

namespace Channel

end Channel

end SchemaWire
