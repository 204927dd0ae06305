import SchemaWire.Frame.Reader
import SchemaWire.Proofs.Delivery
import SchemaWire.Proofs.MessageCounting

/-! Reading a message from a stream and taking one off a buffer come to the same.

The buffer is everything that the stream delivers before it stops. Where the buffer holds no complete
message, the stream runs into its stop. There is one exception: the reader makes room for a payload
before it has seen any of it, and a size within the limit may be more than can be allocated.
-/

set_option autoImplicit false

namespace SchemaWire

namespace Message

variable {limit : UInt64} {count rest buffer : Bytes}

/-! ## Room for a payload -/

/-- The header announces a payload within the limit that no room can be made for. -/
def Unallocatable (limit : UInt64) (buffer : Bytes) : Prop :=
  ∃ count rest, Headed count rest buffer ∧ count.toNat ≤ limit.toNat ∧ maxAllocation < count.toNat

theorem not_unallocatable_of_limit (bounded : limit.toNat ≤ maxAllocation) :
    ¬ Unallocatable limit buffer := by
  intro ⟨_, _, _, small, large⟩
  exact Nat.not_le_of_lt large (Nat.le_trans small bounded)

theorem Headed.not_unallocatable (headed : Headed count rest buffer)
    (room : count.toNat ≤ maxAllocation) : ¬ Unallocatable limit buffer := by
  intro ⟨_, _, again, _, large⟩
  obtain ⟨rfl, -⟩ := headed.unique again
  exact Nat.not_le_of_lt large room

theorem not_unallocatable_of_short {first : UInt8} (few : rest.length < first.toNat) :
    ¬ Unallocatable limit (first :: rest) := by
  intro ⟨count, behind, headed, _⟩
  generalize same : first :: rest = buffer at headed
  obtain ⟨-, counted⟩ := headed
  obtain ⟨rfl, rfl⟩ := List.cons.inj same
  rw [List.length_append] at few
  omega

theorem not_unallocatable_nil : ¬ Unallocatable limit [] := by
  intro ⟨_, _, headed, _⟩
  cases headed

theorem Headed.split?_eq (bounded : limit.toNat ≤ UInt64.size - 10)
    (headed : Headed count rest buffer) (small : count.toNat ≤ limit.toNat) :
    split? limit buffer = .ok (splitAt? count.toNat rest) := by
  rw [split?_of_small headed small, if_pos (messageSize_lt bounded headed.length_le small)]

theorem Unallocatable.split?_ne_failed (bounded : limit.toNat ≤ UInt64.size - 10)
    (unallocatable : Unallocatable limit buffer) (cause : FrameError) :
    split? limit buffer ≠ .error (.failed cause) := by
  obtain ⟨_, _, headed, small, _⟩ := unallocatable
  rw [headed.split?_eq bounded small]
  intro same
  cases same

end Message

namespace Source

open Message (Headed Unallocatable)

/-- What reading a message from a stream comes to, beside what comes of the buffer of all that the
stream can deliver. -/
inductive MessageRead (limit : UInt64) (source : Source) : Except Halt Bytes × Source → Prop where
  | message {taken payload : Bytes} {after : Source} :
      source.Took taken after →
      Message.split? limit source.deliverable = .ok (some (payload, after.deliverable)) →
      ¬ Unallocatable limit source.deliverable →
      MessageRead limit source (.ok payload, after)
  | countTooBig {first : UInt8} {after : Source} :
      source.Took [first] after →
      Message.split? limit source.deliverable = .error (.failed (.countTooBig first.toNat)) →
      MessageRead limit source (.error (.failed (.countTooBig first.toNat)), after)
  | payloadTooLarge {first : UInt8} {count : Bytes} {size : Nat} {after : Source} :
      source.Took (first :: count) after → count.length = first.toNat →
      Message.split? limit source.deliverable = .error (.failed (.payloadTooLarge size limit)) →
      MessageRead limit source (.error (.failed (.payloadTooLarge size limit)), after)
  | unallocatable {first : UInt8} {count : Bytes} {after : Source} :
      source.Took (first :: count) after → count.length = first.toNat →
      Unallocatable limit source.deliverable → MessageRead limit source (.error .panic, after)
  | stopped :
      Message.split? limit source.deliverable = .ok none →
      ¬ Unallocatable limit source.deliverable →
      MessageRead limit source
        (.error (.failed (.readFailed source.stop.failure)), source.stop.remainder)

theorem take_cases (count : Nat) (source : Source) :
    (∃ taken after, source.take count = (.ok taken, after) ∧ source.Took taken after ∧
      taken.length = count) ∨
    (source.deliverable.length < count ∧
      source.take count =
        (.error (.failed (.readFailed source.stop.failure)), source.stop.remainder)) := by
  have fills := fills_fill count source
  simp only [take]
  generalize source.fill count = result at fills ⊢
  cases fills with
  | filled took counted => exact .inl ⟨_, _, rfl, took, counted⟩
  | stopped few => exact .inr ⟨few, rfl⟩

/-! ## Stages

Each stage of reading starts where the stages before it have left the stream. The last one comes
first. -/

theorem andThen_ok {α β : Type} (a : α) (source : Source)
    (next : α → Source → Except Halt β × Source) : andThen (.ok a, source) next = next a source :=
  rfl

theorem andThen_error {α β : Type} (halt : Halt) (source : Source)
    (next : α → Source → Except Halt β × Source) :
    andThen (.error halt, source) next = (.error halt, source) :=
  rfl

variable {limit : UInt64} {source afterFirst afterHeader : Source} {first : UInt8} {count : Bytes}

theorem messageRead_payload (bounded : limit.toNat ≤ UInt64.size - 10)
    (took : source.Took (first :: count) afterHeader) (counted : count.length = first.toNat)
    (headed : Headed count afterHeader.deliverable source.deliverable)
    (small : count.toNat ≤ limit.toNat) :
    MessageRead limit source
      (andThen (allocate count.toNat, afterHeader) fun () source => source.take count.toNat) := by
  have buffer := headed.split?_eq bounded small
  by_cases room : count.toNat ≤ maxAllocation
  · have allocated : ¬ Unallocatable limit source.deliverable := headed.not_unallocatable room
    rw [allocate, if_pos room, andThen_ok]
    rcases take_cases count.toNat afterHeader with
      ⟨payload, after, read, tookPayload, filled⟩ | ⟨few, read⟩
    · rw [splitAt?_eq_some_iff.2 ⟨tookPayload.deliverable, filled⟩] at buffer
      rw [read]
      exact .message (took.append tookPayload) buffer allocated
    · rw [splitAt?_eq_none_iff.2 few] at buffer
      rw [read, took.stop]
      exact .stopped buffer allocated
  · rw [allocate, if_neg room, andThen_error]
    exact .unallocatable took counted ⟨_, _, headed, small, Nat.lt_of_not_le room⟩

theorem messageRead_count (bounded : limit.toNat ≤ UInt64.size - 10)
    (took : source.Took [first] afterFirst) (short : first.toNat ≤ maxCountLength) :
    MessageRead limit source
      (andThen (afterFirst.take first.toNat) fun count source =>
        andThen ((Message.payloadSize limit count).mapError .failed, source) fun size source =>
          andThen (allocate size, source) fun () source => source.take size) := by
  have front : source.deliverable = first :: afterFirst.deliverable := took.deliverable
  rcases take_cases first.toNat afterFirst with
    ⟨count, afterHeader, read, tookCount, counted⟩ | ⟨few, read⟩
  · have headed : Headed count afterHeader.deliverable source.deliverable := by
      rw [front, tookCount.deliverable]
      exact .intro short counted
    rw [read, andThen_ok]
    -- The size is checked before any of the payload is read.
    by_cases small : count.toNat ≤ limit.toNat
    · rw [Message.payloadSize_of_toNat headed.length_le small, Outcome.mapError_ok, andThen_ok]
      exact messageRead_payload bounded (took.append tookCount) counted headed small
    · have large := Nat.lt_of_not_le small
      rw [headed.payloadSize_of_large large, Outcome.mapError_error, andThen_error]
      exact .payloadTooLarge (took.append tookCount) counted (Message.split?_of_large headed large)
  · have incomplete : Message.split? limit source.deliverable = .ok none := by
      rw [front, Message.split?_cons bounded, Message.countLength_eq_ok_iff.2 ⟨rfl, short⟩,
        Outcome.mapError_ok, Except.bind, splitAt?_eq_none_iff.2 few]
    rw [read, andThen_error, took.stop]
    exact .stopped incomplete (front ▸ Message.not_unallocatable_of_short few)

theorem messageRead_readFramed (bounded : limit.toNat ≤ UInt64.size - 10) (source : Source) :
    MessageRead limit source (source.readFramed limit) := by
  rw [readFramed]
  rcases take_cases 1 source with ⟨front, afterFirst, read, took, single⟩ | ⟨few, read⟩
  · obtain ⟨first, rfl⟩ := List.length_eq_one_iff.1 single
    rw [read, andThen_ok, List.headD_cons]
    -- The announced length is checked before anything else is read.
    cases announced : Message.countLength first with
    | error error =>
      obtain rfl := Message.eq_of_countLength announced
      have refused : Message.split? limit source.deliverable =
          .error (.failed (.countTooBig first.toNat)) := by
        rw [took.deliverable, List.singleton_append, Message.split?_cons bounded, announced]
        rfl
      exact .countTooBig took refused
    | ok length =>
      obtain ⟨rfl, short⟩ := Message.countLength_eq_ok_iff.1 announced
      exact messageRead_count bounded took short
  · have empty := List.length_eq_zero_iff.1 (Nat.lt_one_iff.1 few)
    rw [read]
    exact .stopped (by rw [empty]; rfl) (empty ▸ Message.not_unallocatable_nil)

/-! ## Splits and interruptions -/

theorem SameResult.andThen {α β : Type} {left right : Except Halt α × Source}
    (same : SameResult left right) {next : α → Source → Except Halt β × Source}
    (later : ∀ a {left right}, left.Alike right → SameResult (next a left) (next a right)) :
    SameResult (andThen left next) (andThen right next) := by
  obtain ⟨outcome, leftAfter⟩ := left
  obtain ⟨_, rightAfter⟩ := right
  obtain ⟨rfl, alike⟩ := same
  cases outcome with
  | error error => exact ⟨rfl, alike⟩
  | ok a => exact later a alike

theorem Alike.take {left right : Source} (alike : left.Alike right) (count : Nat) :
    SameResult (left.take count) (right.take count) := by
  obtain ⟨outcome, after⟩ := alike.fill count
  exact ⟨congrArg (Except.mapError fun cause => Halt.failed (.readFailed cause)) outcome, after⟩

theorem Alike.check {α : Type} {left right : Source} (alike : left.Alike right)
    (outcome : Except Halt α) : SameResult (outcome, left) (outcome, right) :=
  ⟨rfl, alike⟩

theorem Alike.readFramed {left right : Source} (alike : left.Alike right) (limit : UInt64) :
    SameResult (left.readFramed limit) (right.readFramed limit) := by
  -- The streams stay alike from stage to stage, until one stage fails on both.
  apply SameResult.andThen (alike.take 1)
  intro first left right alike
  apply SameResult.andThen (alike.check _)
  intro length left right alike
  apply SameResult.andThen (alike.take length)
  intro count left right alike
  apply SameResult.andThen (alike.check _)
  intro size left right alike
  apply SameResult.andThen (alike.check _)
  intro _ left right alike
  exact alike.take size

/-! ## Agreement with the buffer -/

def taken (source after : Source) : Nat := source.size - after.size

theorem Took.taken {after : Source} {front : Bytes} (took : source.Took front after) :
    source.taken after = front.length := by
  rw [Source.taken, took.size, Nat.add_sub_cancel]

theorem Took.taken_header {after : Source} (took : source.Took (first :: count) after)
    (counted : count.length = first.toNat) :
    source.taken after = 1 + (source.deliverable.headD 0).toNat := by
  rw [took.taken, took.deliverable, List.length_cons, counted, Nat.add_comm]
  rfl

theorem taken_remainder (source : Source) :
    source.taken source.stop.remainder = source.deliverable.length := by
  rw [taken, size_eq, Nat.add_sub_cancel]

namespace MessageRead

variable {result : Except Halt Bytes × Source}

theorem message_iff (read : MessageRead limit source result) {payload rest : Bytes} :
    (∃ after, result = (.ok payload, after) ∧ after.deliverable = rest ∧
      after.stop = source.stop ∧
      source.taken after = source.deliverable.length - rest.length) ↔
    Message.split? limit source.deliverable = .ok (some (payload, rest)) ∧
      ¬ Unallocatable limit source.deliverable := by
  cases read with
  | message took buffer room =>
    rw [buffer]
    constructor
    · rintro ⟨_, same, rfl, -, -⟩
      cases same
      exact ⟨rfl, room⟩
    · rintro ⟨same, -⟩
      cases same
      refine ⟨_, rfl, rfl, took.stop, ?_⟩
      rw [took.taken, took.deliverable, List.length_append, Nat.add_sub_cancel]
  | countTooBig _ buffer => simp [buffer]
  | payloadTooLarge _ _ buffer => simp [buffer]
  | unallocatable _ _ beyond => simp [beyond]
  | stopped buffer _ => simp [buffer]

theorem countTooBig_iff (read : MessageRead limit source result)
    (bounded : limit.toNat ≤ UInt64.size - 10) {length : Nat} :
    (∃ after, result = (.error (.failed (.countTooBig length)), after) ∧
      source.taken after = 1) ↔
    Message.split? limit source.deliverable = .error (.failed (.countTooBig length)) := by
  cases read with
  | message _ buffer _ => simp [buffer]
  | countTooBig took buffer =>
    rw [buffer]
    constructor
    · rintro ⟨_, same, -⟩
      cases same
      rfl
    · intro same
      cases same
      exact ⟨_, rfl, took.taken⟩
  | payloadTooLarge _ _ buffer => simp [buffer]
  | unallocatable _ _ beyond => simp [beyond.split?_ne_failed bounded]
  | stopped buffer _ => simp [buffer]

theorem payloadTooLarge_iff (read : MessageRead limit source result)
    (bounded : limit.toNat ≤ UInt64.size - 10) {size : Nat} {most : UInt64} :
    (∃ after, result = (.error (.failed (.payloadTooLarge size most)), after) ∧
      source.taken after = 1 + (source.deliverable.headD 0).toNat) ↔
    Message.split? limit source.deliverable = .error (.failed (.payloadTooLarge size most)) := by
  cases read with
  | message _ buffer _ => simp [buffer]
  | countTooBig _ buffer => simp [buffer]
  | payloadTooLarge took counted buffer =>
    rw [buffer]
    constructor
    · rintro ⟨_, same, -⟩
      cases same
      rfl
    · intro same
      cases same
      exact ⟨_, rfl, took.taken_header counted⟩
  | unallocatable _ _ beyond => simp [beyond.split?_ne_failed bounded]
  | stopped buffer _ => simp [buffer]

theorem stopped_iff (read : MessageRead limit source result) :
    (result = (.error (.failed (.readFailed source.stop.failure)), source.stop.remainder) ∧
      source.taken source.stop.remainder = source.deliverable.length) ↔
    Message.split? limit source.deliverable = .ok none ∧
      ¬ Unallocatable limit source.deliverable := by
  cases read with
  | message _ buffer _ => simp [buffer]
  | countTooBig _ buffer => simp [buffer]
  | payloadTooLarge _ _ buffer => simp [buffer]
  | unallocatable _ _ beyond => simp [beyond]
  | stopped buffer room => simp [buffer, room, taken_remainder]

theorem panic_iff (read : MessageRead limit source result)
    (bounded : limit.toNat ≤ UInt64.size - 10) :
    (∃ after, result = (.error .panic, after) ∧
      source.taken after = 1 + (source.deliverable.headD 0).toNat) ↔
    Unallocatable limit source.deliverable := by
  cases read with
  | message _ _ room => simp [room]
  | countTooBig _ buffer =>
    simp only [Prod.mk.injEq, Except.error.injEq, reduceCtorEq, false_and, exists_false, false_iff]
    exact fun beyond => beyond.split?_ne_failed bounded _ buffer
  | payloadTooLarge _ _ buffer =>
    simp only [Prod.mk.injEq, Except.error.injEq, reduceCtorEq, false_and, exists_false, false_iff]
    exact fun beyond => beyond.split?_ne_failed bounded _ buffer
  | unallocatable took counted beyond =>
    exact iff_of_true ⟨_, rfl, took.taken_header counted⟩ beyond
  | stopped _ room => simp [room]

end MessageRead

/-- A read from the stream takes every decision at the byte where it is taken on the buffer, and how
the stream hands out its bytes makes no difference. Only a size that is admitted but cannot be
allocated parts the two: the reader panics behind the header, complete or not as the message may be.
No limit up to `maxAllocation` admits such a size. -/
theorem readFramed_agrees (limit : UInt64) (bounded : limit.toNat ≤ UInt64.size - 10)
    (source : Source) :
    (∀ payload rest,
      (∃ after, source.readFramed limit = (.ok payload, after) ∧ after.deliverable = rest ∧
        after.stop = source.stop ∧
        source.taken after = source.deliverable.length - rest.length) ↔
      Message.pop limit source.deliverable = (.ok (some payload), rest) ∧
        ¬ Unallocatable limit source.deliverable) ∧
    (∀ length,
      (∃ after, source.readFramed limit = (.error (.failed (.countTooBig length)), after) ∧
        source.taken after = 1) ↔
      Message.pop limit source.deliverable =
        (.error (.failed (.countTooBig length)), source.deliverable)) ∧
    (∀ size most,
      (∃ after, source.readFramed limit = (.error (.failed (.payloadTooLarge size most)), after) ∧
        source.taken after = 1 + (source.deliverable.headD 0).toNat) ↔
      Message.pop limit source.deliverable =
        (.error (.failed (.payloadTooLarge size most)), source.deliverable)) ∧
    ((source.readFramed limit =
          (.error (.failed (.readFailed source.stop.failure)), source.stop.remainder) ∧
        source.taken source.stop.remainder = source.deliverable.length) ↔
      Message.pop limit source.deliverable = (.ok none, source.deliverable) ∧
        ¬ Unallocatable limit source.deliverable) ∧
    ((∃ after, source.readFramed limit = (.error .panic, after) ∧
        source.taken after = 1 + (source.deliverable.headD 0).toNat) ↔
      Unallocatable limit source.deliverable) ∧
    (limit.toNat ≤ maxAllocation → ¬ Unallocatable limit source.deliverable) ∧
    ∀ other, source.Alike other →
      SameResult (source.readFramed limit) (other.readFramed limit) := by
  have read := messageRead_readFramed bounded source
  simp only [Message.pop_eq_some_iff, Message.pop_eq_error_iff, Message.pop_eq_none_iff]
  refine ⟨?_, ?_, ?_, read.stopped_iff, read.panic_iff bounded,
    Message.not_unallocatable_of_limit, fun other alike => alike.readFramed limit⟩
  · intro payload rest
    exact read.message_iff
  · intro length
    exact read.countTooBig_iff bounded
  · intro size most
    exact read.payloadTooLarge_iff bounded

theorem readFramed_agrees_interrupted :
    ∃ after,
      readFramed 16 ⟨[1], [.failure (.ofKind .interrupted), .data [2, 7], .data [8, 0], .ending]⟩ =
        (.ok [7, 8], after) ∧ after.deliverable = [0] ∧ after.stop.cause = none := by
  obtain ⟨message, -, -, -, -, within, -⟩ := readFramed_agrees 16 (by decide)
    ⟨[1], [.failure (.ofKind .interrupted), .data [2, 7], .data [8, 0], .ending]⟩
  obtain ⟨after, read, left, stop, -⟩ := (message [7, 8] [0]).2 ⟨rfl, within (by decide)⟩
  exact ⟨after, read, left, by rw [stop]; rfl⟩

/-- The stream ends behind a header that announces one byte more than can be allocated. The buffer
waits for the payload, and the reader does not get as far as the end of the stream. -/
theorem greatest_allocation_exceeded :
    let limit : UInt64 := UInt64.ofNat (UInt64.size - 10)
    let source : Source := ⟨[], [.data [8, 128, 0, 0, 0, 0, 0, 0, 0], .ending]⟩
    limit.toNat ≤ UInt64.size - 10 ∧
    Message.pop limit source.deliverable = (.ok none, source.deliverable) ∧
    source.stop.cause = none ∧
    (source.readFramed limit).1 ≠ .error (.failed (.readFailed .closed)) ∧
    source.readFramed limit = (.error .panic, ⟨[], [.ending]⟩) := by
  intro limit source
  have panics : source.readFramed limit = (.error .panic, ⟨[], [.ending]⟩) := by rfl
  refine ⟨by decide, by rfl, rfl, ?_, panics⟩
  rw [panics]
  intro same
  cases same

end Source

/-! ## Reading without a reader -/

namespace Reader

theorem readMessage_eq (source : Source) :
    source.readMessage =
      let (outcome, reader) := read .none ⟨source, Message.defaultLimit⟩
      (outcome, reader.source) := by
  simp only [Source.readMessage, read, Compression.map_restore_none]

theorem readValue_eq (codec : Codec) (type : String) (source : Source) :
    source.readValue codec type =
      let (outcome, reader) := readValue codec type ⟨source, Message.defaultLimit⟩
      (outcome, reader.source) := by
  simp only [Source.readValue, readMessage_eq, readValue]

end Reader

end SchemaWire
