import Mathlib.Data.List.Forall2
import SchemaWire.Frame.Writer

/-! Sending messages over a stream that takes bytes as it pleases.

Writing goes on through short writes and interruptions up to the first answer that stops it, and the
bytes taken by then are the first ones of the frame. So a send puts its whole frame on the stream and
flushes it, or it fails and leaves the beginning of its own frame behind. Nothing of another frame
goes with it, because what an earlier send has left in the buffer is dropped first.
-/

set_option autoImplicit false

namespace SchemaWire

/-! ## Answers of a stream -/

namespace WriteEvent

def room : WriteEvent → Nat
  | .accept count => count
  | .failure _ => 0

/-- The failure with which an answer stops writing. To take nothing is one. -/
def stop? : WriteEvent → Option IoError
  | .accept 0 => some .stalled
  | .accept _ => none
  | .failure error => if error.interruptsWriting then none else some error

end WriteEvent

namespace Sink

def writeStop? : List WriteEvent → Option (Nat × IoError)
  | [] => none
  | event :: events =>
    match event.stop? with
    | some error => some (0, error)
    | none => (writeStop? events).map fun (taken, error) => (event.room + taken, error)

def flushStop? : List FlushEvent → Option IoError
  | [] => none
  | .success :: _ => none
  | .failure error :: events => if error.interruptsWriting then flushStop? events else some error

/-- All of the bytes go before writing is stopped. -/
def Fits (bytes : Bytes) (events : List WriteEvent) : Prop :=
  ∀ taken error, writeStop? events = some (taken, error) → bytes.length ≤ taken

inductive Writes (bytes : Bytes) (events : List WriteEvent) :
    Except IoError Unit × Bytes × List WriteEvent → Prop where
  | whole {left : List WriteEvent} :
      Fits bytes events → left <:+ events → Writes bytes events (.ok (), bytes, left)
  | stopped {left : List WriteEvent} {taken : Nat} {error : IoError} :
      writeStop? events = some (taken, error) → taken < bytes.length → left <:+ events →
      Writes bytes events (.error error, bytes.take taken, left)

variable {bytes : Bytes} {event : WriteEvent} {events : List WriteEvent}

theorem Writes.after (going : event.stop? = none)
    {result : Except IoError Unit × Bytes × List WriteEvent}
    (writes : Writes (bytes.drop event.room) events result) :
    Writes bytes (event :: events) (result.1, bytes.take event.room ++ result.2.1, result.2.2) := by
  have stops : writeStop? (event :: events) =
      (writeStop? events).map fun (taken, error) => (event.room + taken, error) := by
    rw [writeStop?, going]
  cases writes with
  | whole fits rest =>
    rw [List.take_append_drop]
    refine .whole (fun taken error stop => ?_) (rest.trans (List.suffix_cons event events))
    rw [stops, Option.map_eq_some_iff] at stop
    obtain ⟨⟨later, _⟩, stop, same⟩ := stop
    obtain ⟨rfl, rfl⟩ := Prod.mk.inj same
    have bound := fits later _ stop
    rw [List.length_drop] at bound
    omega
  | stopped stop short rest =>
    rw [List.length_drop] at short
    rw [← List.take_add]
    refine .stopped ?_ (by omega) (rest.trans (List.suffix_cons event events))
    rw [stops, stop]
    rfl

theorem writes_writeAgainst (bytes : Bytes) (events : List WriteEvent) :
    Writes bytes events (writeAgainst bytes events) := by
  induction events generalizing bytes with
  | nil => exact .whole nofun (List.suffix_refl [])
  | cons event events ih =>
    rw [writeAgainst.eq_def]
    dsimp only
    split
    · rename_i empty
      obtain rfl := List.isEmpty_iff.1 empty
      exact .whole (fun taken _ _ => Nat.zero_le taken) (List.suffix_refl _)
    · rename_i nonempty
      have positive : 0 < bytes.length := by
        rw [List.length_pos_iff]
        rintro rfl
        exact nonempty rfl
      have rest := List.suffix_cons event events
      split
      · have stop : writeStop? (.accept 0 :: events) = some (0, .stalled) := rfl
        exact .stopped stop positive rest
      · rename_i count some
        cases count with
        | zero => exact absurd rfl some
        | succ count => exact (ih _).after rfl
      · rename_i error
        by_cases interrupts : error.interruptsWriting
        · -- Nothing is taken when writing is interrupted.
          have going : (WriteEvent.failure error).stop? = none := if_pos interrupts
          simpa [interrupts, WriteEvent.room] using (ih _).after going
        · have halting : (WriteEvent.failure error).stop? = some error := if_neg interrupts
          have stop : writeStop? (.failure error :: events) = some (0, error) := by
            rw [writeStop?, halting]
          rw [if_neg interrupts]
          exact .stopped stop positive rest

/-! ## Streams -/

/-- A stream that has taken bytes. Nothing else has become of it than that answers are used up. -/
structure Gained (sink : Sink) (bytes : Bytes) (after : Sink) : Prop where
  received : after.received = sink.received ++ bytes
  writes : after.writes <:+ sink.writes
  flushes : after.flushes = sink.flushes
  flushed : after.flushed = sink.flushed

structure Flushed (sink : Sink) (successes : Nat) (after : Sink) : Prop where
  received : after.received = sink.received
  writes : after.writes = sink.writes
  flushes : after.flushes <:+ sink.flushes
  flushed : after.flushed = sink.flushed + successes

variable {sink : Sink}

theorem writeAll_cases (bytes : Bytes) (sink : Sink) :
    (∃ after, sink.writeAll bytes = (.ok (), after) ∧ Fits bytes sink.writes ∧
      sink.Gained bytes after) ∨
    ∃ taken error after, sink.writeAll bytes = (.error error, after) ∧
      writeStop? sink.writes = some (taken, error) ∧ taken < bytes.length ∧
      sink.Gained (bytes.take taken) after := by
  have writes := writes_writeAgainst bytes sink.writes
  simp only [writeAll]
  generalize writeAgainst bytes sink.writes = result at writes ⊢
  cases writes with
  | whole fits rest => exact .inl ⟨_, rfl, fits, rfl, rest, rfl, rfl⟩
  | stopped stop short rest => exact .inr ⟨_, _, _, rfl, stop, short, rfl, rest, rfl, rfl⟩

theorem flushAgainst_cases (events : List FlushEvent) :
    ∃ left, left <:+ events ∧
      (flushStop? events = none ∧ flushAgainst events = (.ok (), left) ∨
        ∃ error, flushStop? events = some error ∧ flushAgainst events = (.error error, left)) := by
  induction events with
  | nil => exact ⟨[], List.suffix_refl [], .inl ⟨rfl, rfl⟩⟩
  | cons event events ih =>
    cases event with
    | success => exact ⟨events, List.suffix_cons _ _, .inl ⟨rfl, rfl⟩⟩
    | failure error =>
      by_cases interrupts : error.interruptsWriting
      · obtain ⟨left, rest, result⟩ := ih
        refine ⟨left, rest.trans (List.suffix_cons _ _), ?_⟩
        rwa [flushStop?, flushAgainst, if_pos interrupts, if_pos interrupts]
      · refine ⟨events, List.suffix_cons _ _, .inr ⟨error, ?_, ?_⟩⟩
        · rw [flushStop?, if_neg interrupts]
        · rw [flushAgainst, if_neg interrupts]

theorem flush_cases (sink : Sink) :
    (∃ after, sink.flush = (.ok (), after) ∧ flushStop? sink.flushes = none ∧
      sink.Flushed 1 after) ∨
    ∃ error after, sink.flush = (.error error, after) ∧ flushStop? sink.flushes = some error ∧
      sink.Flushed 0 after := by
  obtain ⟨left, rest, ⟨stop, result⟩ | ⟨error, stop, result⟩⟩ := flushAgainst_cases sink.flushes
  · refine .inl ⟨{ sink with flushes := left, flushed := sink.flushed + 1 }, ?_, stop,
      rfl, rfl, rest, rfl⟩
    rw [flush, result]
  · refine .inr ⟨error, { sink with flushes := left }, ?_, stop, rfl, rfl, rest, rfl⟩
    rw [flush, result]

end Sink

namespace Sink

variable {limit : UInt64} {payload : Bytes} {sink : Sink} {result : Except FrameError Unit × Sink}

/-! ## Sends -/

/-- What sending a payload comes to on a stream. Which of the four it is depends on the size of the
payload and on the first answers of the stream that stop writing and flushing. -/
inductive Sends (limit : UInt64) (payload : Bytes) (sink : Sink) :
    Except FrameError Unit × Sink → Prop where
  /-- The stream is left alone. -/
  | refused :
      limit.toNat < payload.length →
      Sends limit payload sink (.error (.payloadTooLarge payload.length limit), sink)
  /-- The stream takes the whole frame, and then it is flushed once. -/
  | sent {written after : Sink} :
      payload.length ≤ limit.toNat →
      Fits (Message.encode payload) sink.writes → flushStop? sink.flushes = none →
      sink.Gained (Message.encode payload) written → written.Flushed 1 after →
      Sends limit payload sink (.ok (), after)
  /-- The stream takes a part of the frame, and it is not flushed. -/
  | cutOff {after : Sink} {taken : Nat} {error : IoError} :
      payload.length ≤ limit.toNat →
      writeStop? sink.writes = some (taken, error) → taken < (Message.encode payload).length →
      sink.Gained ((Message.encode payload).take taken) after →
      Sends limit payload sink (.error (.writeFailed error), after)
  /-- The stream takes the whole frame, and no flush succeeds. -/
  | unflushed {written after : Sink} {error : IoError} :
      payload.length ≤ limit.toNat →
      Fits (Message.encode payload) sink.writes → flushStop? sink.flushes = some error →
      sink.Gained (Message.encode payload) written → written.Flushed 0 after →
      Sends limit payload sink (.error (.writeFailed error), after)

theorem sends_writeFlushed (small : payload.length ≤ limit.toNat) (sink : Sink) :
    Sends limit payload sink (sink.writeFlushed (Message.encode payload)) := by
  simp only [writeFlushed]
  rcases writeAll_cases (Message.encode payload) sink with
    ⟨written, wrote, fits, gained⟩ | ⟨taken, error, after, wrote, stop, short, gained⟩
  · rw [wrote]
    -- The answers to flushes are those that there were before the frame was written.
    rcases flush_cases written with
      ⟨after, done, clear, flushed⟩ | ⟨error, after, failed, stop, flushed⟩
    · rw [gained.flushes] at clear
      simp only [done]
      exact .sent small fits clear gained flushed
    · rw [gained.flushes] at stop
      simp only [failed]
      exact .unflushed small fits stop gained flushed
  · rw [wrote]
    exact .cutOff small stop short gained

theorem sends_writeMessage (payload : Bytes) (sink : Sink) :
    Sends Message.defaultLimit payload sink (sink.writeMessage payload) := by
  rw [writeMessage]
  split
  · rename_i small
    exact sends_writeFlushed small sink
  · rename_i large
    exact .refused (Nat.lt_of_not_le large)

/-- A send adds the beginning of its frame to the stream, and all of it when it succeeds. -/
theorem Sends.received (sends : Sends limit payload sink result) :
    ∃ piece, result.2.received = sink.received ++ piece ∧
      piece <+: Message.encode payload ∧ (result.1 = .ok () → piece = Message.encode payload) := by
  cases sends with
  | refused _ => exact ⟨[], (List.append_nil _).symm, List.nil_prefix, nofun⟩
  | sent _ _ _ gained flushed =>
    exact ⟨_, flushed.received.trans gained.received, List.prefix_rfl, fun _ => rfl⟩
  | cutOff _ _ _ gained => exact ⟨_, gained.received, List.take_prefix _ _, nofun⟩
  | unflushed _ _ _ gained flushed =>
    exact ⟨_, flushed.received.trans gained.received, List.prefix_rfl, nofun⟩

end Sink

namespace Writer

/-- Whatever an earlier send has left in the buffer, it is not there when the next frame goes out. -/
theorem write_of_small {mode : Compression} {payload : Bytes} {writer : Writer}
    (small : (mode.apply payload).length ≤ writer.limit.toNat) :
    writer.write mode payload =
      let frame := Message.encode (mode.apply payload)
      let (outcome, sink) := writer.sink.writeFlushed frame
      (outcome, ⟨sink, frame, writer.limit⟩) := by
  rw [write, if_pos small]
  rfl

theorem sends_write (mode : Compression) (payload : Bytes) (writer : Writer) :
    writer.sink.Sends writer.limit (mode.apply payload)
      ((writer.write mode payload).1, (writer.write mode payload).2.sink) := by
  by_cases small : (mode.apply payload).length ≤ writer.limit.toNat
  · rw [write_of_small small]
    exact Sink.sends_writeFlushed small writer.sink
  · rw [write, if_neg small]
    exact .refused (Nat.lt_of_not_le small)

theorem limit_write (mode : Compression) (payload : Bytes) (writer : Writer) :
    (writer.write mode payload).2.limit = writer.limit := by
  by_cases small : (mode.apply payload).length ≤ writer.limit.toNat
  · rw [write_of_small small]
  · rw [write, if_neg small]

/-- Writing without a writer is what one with the default limit does, whatever its buffer holds. -/
theorem writeMessage_eq (payload buffer : Bytes) (sink : Sink) :
    sink.writeMessage payload =
      let (outcome, writer) := write .none payload ⟨sink, buffer, Message.defaultLimit⟩
      (outcome, writer.sink) := by
  by_cases small : payload.length ≤ Message.defaultLimit.toNat
  · have written : write .none payload ⟨sink, buffer, Message.defaultLimit⟩ = _ :=
      write_of_small small
    rw [Sink.writeMessage, if_pos small, written]
    rfl
  · have refused : write .none payload ⟨sink, buffer, Message.defaultLimit⟩ =
        (.error (.payloadTooLarge payload.length Message.defaultLimit), ⟨sink, buffer, _⟩) :=
      if_neg small
    rw [Sink.writeMessage, if_neg small, refused]

theorem sendValue_eq (codec : Codec) (type : String) (value : Value) (buffer : Bytes)
    (sink : Sink) :
    sink.sendValue codec type value =
      let (outcome, writer) := sendValue codec type value ⟨sink, buffer, Message.defaultLimit⟩
      (outcome, writer.sink) := by
  rw [Sink.sendValue, sendValue]
  cases codec.encode type value with
  | ok payload => exact writeMessage_eq payload buffer sink
  | error cause => rfl

end Writer

/-! ## Whole runs -/

inductive WriterStep where
  | write (mode : Compression) (payload : Bytes)
  | sendValue (codec : Codec) (type : String) (value : Value)
  | flush
  | setLimit (limit : UInt64)

namespace WriterStep

def frame : WriterStep → Bytes
  | .write mode payload => Message.encode (mode.apply payload)
  | .sendValue codec type value =>
    match codec.encode type value with
    | .ok payload => Message.encode payload
    | .error _ => []
  | .flush => []
  | .setLimit _ => []

def perform (step : WriterStep) (writer : Writer) : Except FrameError Unit × Writer :=
  match step with
  | .write mode payload => writer.write mode payload
  | .sendValue codec type value => writer.sendValue codec type value
  | .flush => writer.flush
  | .setLimit limit => (.ok (), writer.setLimit limit)

def run : List WriterStep → Writer → List (Except FrameError Unit) × Writer
  | [], writer => ([], writer)
  | step :: steps, writer =>
    let (outcome, writer) := step.perform writer
    let (outcomes, writer) := run steps writer
    (outcome :: outcomes, writer)

/-- A piece is what a step with an outcome puts on the stream. -/
def Puts (taken : WriterStep × Except FrameError Unit) (piece : Bytes) : Prop :=
  piece <+: taken.1.frame ∧ (taken.2 = .ok () → piece = taken.1.frame)

theorem puts_perform (step : WriterStep) (writer : Writer) :
    ∃ piece, (step.perform writer).2.sink.received = writer.sink.received ++ piece ∧
      Puts (step, (step.perform writer).1) piece := by
  have nothing : writer.sink.received = writer.sink.received ++ [] := (List.append_nil _).symm
  cases step with
  | write mode payload => exact (Writer.sends_write mode payload writer).received
  | sendValue codec type value =>
    cases encoded : codec.encode type value with
    | ok payload =>
      simpa only [perform, Writer.sendValue, encoded, Puts, frame, Compression.apply_none]
        using (Writer.sends_write .none payload writer).received
    | error cause =>
      simp only [perform, Writer.sendValue, encoded, Puts, frame]
      exact ⟨[], nothing, List.nil_prefix, nofun⟩
  | flush =>
    have kept : (writer.flush).2.sink.received = writer.sink.received := by
      rcases Sink.flush_cases writer.sink with ⟨_, done, _, flushed⟩ | ⟨_, _, failed, _, flushed⟩
      · simpa only [Writer.flush, done] using flushed.received
      · simpa only [Writer.flush, failed] using flushed.received
    exact ⟨[], kept.trans nothing, List.nil_prefix, fun _ => rfl⟩
  | setLimit limit => exact ⟨[], nothing, List.nil_prefix, fun _ => rfl⟩

theorem puts_run (steps : List WriterStep) (writer : Writer) :
    ∃ pieces, (run steps writer).2.sink.received = writer.sink.received ++ pieces.flatten ∧
      List.Forall₂ Puts (steps.zip (run steps writer).1) pieces := by
  induction steps generalizing writer with
  | nil => exact ⟨[], (List.append_nil _).symm, .nil⟩
  | cons step steps ih =>
    obtain ⟨piece, received, puts⟩ := puts_perform step writer
    obtain ⟨pieces, later, others⟩ := ih (step.perform writer).2
    refine ⟨piece :: pieces, ?_, .cons puts others⟩
    simp only [run, later, received, List.flatten_cons, List.append_assoc]

end WriterStep

namespace Writer

/-- After any earlier steps of a writer, failed ones among them, the stream holds the beginnings of
their frames and no more, and the next send either puts its whole frame on the stream and flushes it
or fails in one of three ways. So does writing the payload without a writer, and it comes to the same
as a writer with the default limit. -/
theorem send_whole_or_fail (earlier : List WriterStep) (start : Writer) (mode : Compression)
    (payload : Bytes) :
    let (outcomes, writer) := WriterStep.run earlier start
    (∃ pieces, writer.sink.received = start.sink.received ++ pieces.flatten ∧
      List.Forall₂ WriterStep.Puts (earlier.zip outcomes) pieces) ∧
    writer.sink.Sends writer.limit (mode.apply payload)
      ((writer.write mode payload).1, (writer.write mode payload).2.sink) ∧
    (writer.write mode payload).2.limit = writer.limit ∧
    writer.sink.Sends Message.defaultLimit payload (writer.sink.writeMessage payload) ∧
    let (outcome, after) := (writer.setLimit Message.defaultLimit).write .none payload
    writer.sink.writeMessage payload = (outcome, after.sink) :=
  ⟨WriterStep.puts_run earlier start, sends_write mode payload _, limit_write mode payload _,
    Sink.sends_writeMessage payload _, writeMessage_eq payload _ _⟩

/-- The first send is cut off behind two bytes, and leaves all four in the buffer. -/
example :
    WriterStep.run [.write .none [7, 8], .write .none [9]]
      ⟨⟨[.accept 1, .failure (.ofKind .interrupted), .accept 0], [], [], 0⟩, [5], 16⟩ =
      ([.error (.writeFailed .stalled), .ok ()], ⟨⟨[], [], [1, 1, 1, 9], 1⟩, [1, 1, 9], 16⟩) := by
  rfl

end Writer

end SchemaWire
