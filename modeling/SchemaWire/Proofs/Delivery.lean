import SchemaWire.Stream.Source

/-! What a stream delivers before it stops.

A stream stops at its end and at every failure that is not an interruption. The bytes before the
first stop and the stop itself are all that filling depends on; how the bytes are split over reads
and where reads are interrupted makes no difference.
-/

set_option autoImplicit false

namespace SchemaWire

structure Stop where
  /-- The failure that stops the stream, or none at its end. -/
  cause : Option IoError
  /-- What the stream does when it is read again. -/
  behind : List ReadEvent

namespace Stop

def failure (stop : Stop) : IoError :=
  match stop.cause with
  | none => .closed
  | some error => if error.kind = .unexpectedEof then .closed else error

def remainder (stop : Stop) : Source := ⟨[], stop.behind⟩

end Stop

namespace Source

def deliverableOf : List ReadEvent → Bytes
  | [] => []
  | .data bytes :: events => bytes ++ deliverableOf events
  | .failure error :: events => if error.interruptsReading then deliverableOf events else []
  | .ending :: _ => []

def stopOf : List ReadEvent → Stop
  | [] => ⟨none, []⟩
  | .data _ :: events => stopOf events
  | .failure error :: events =>
    if error.interruptsReading then stopOf events else ⟨some error, events⟩
  | .ending :: events => ⟨none, events⟩

def deliverable (source : Source) : Bytes := source.current ++ deliverableOf source.events

def stop (source : Source) : Stop := stopOf source.events

/-- `after` is left of a stream when the bytes `taken` were taken, and its stop is still ahead. -/
structure Took (source : Source) (taken : Bytes) (after : Source) : Prop where
  deliverable : source.deliverable = taken ++ after.deliverable
  stop : after.stop = source.stop

inductive Fills (count : Nat) (source : Source) : Except IoError Bytes × Source → Prop where
  | filled {taken : Bytes} {after : Source} :
      source.Took taken after → taken.length = count → Fills count source (.ok taken, after)
  | stopped :
      source.deliverable.length < count →
      Fills count source (.error source.stop.failure, source.stop.remainder)

/-! ## Sizes -/

theorem size_data (current bytes : Bytes) (events : List ReadEvent) :
    (⟨current, .data bytes :: events⟩ : Source).size =
      (⟨current ++ bytes, events⟩ : Source).size := by
  simp [size]

theorem size_mk (current : Bytes) (events : List ReadEvent) :
    (⟨current, events⟩ : Source).size = current.length + (⟨[], events⟩ : Source).size := by
  induction events generalizing current with
  | nil => rfl
  | cons event events ih =>
    cases event with
    | data bytes =>
      rw [size_data, size_data, ih, ih ([] ++ bytes), List.length_append, List.nil_append,
        Nat.add_assoc]
    | failure error => exact ih current
    | ending => exact ih current

/-- A stream hands out what comes before its stop and what comes behind it. -/
theorem size_eq (source : Source) :
    source.size = source.deliverable.length + source.stop.remainder.size := by
  obtain ⟨current, events⟩ := source
  rw [size_mk, deliverable, List.length_append, Nat.add_assoc]
  refine congrArg (current.length + ·) ?_
  induction events with
  | nil => rfl
  | cons event events ih =>
    cases event with
    | data bytes =>
      rw [size_data, List.nil_append, size_mk, ih]
      simp [deliverableOf, stop, stopOf, Nat.add_assoc]
    | failure error =>
      by_cases interrupts : error.interruptsReading
      · have begun : (⟨[], .failure error :: events⟩ : Source).size = (⟨[], events⟩ : Source).size :=
          rfl
        rw [begun, ih]
        simp [deliverableOf, stop, stopOf, interrupts]
      · simp [deliverableOf, stop, stopOf, interrupts, Stop.remainder, size]
    | ending => simp [deliverableOf, stop, stopOf, Stop.remainder, size]

theorem Took.size {source after : Source} {taken : Bytes} (took : source.Took taken after) :
    source.size = taken.length + after.size := by
  rw [size_eq source, size_eq after, took.deliverable, took.stop, List.length_append, Nat.add_assoc]

theorem Took.append {source middle after : Source} {front back : Bytes}
    (first : source.Took front middle) (second : middle.Took back after) :
    source.Took (front ++ back) after where
  deliverable := by rw [first.deliverable, second.deliverable, List.append_assoc]
  stop := second.stop.trans first.stop

/-! ## Filling -/

variable {count : Nat} {source later : Source}

theorem Fills.after {result : Except IoError Bytes × Source} {front : Bytes}
    (took : source.Took front later) (missing : front.length ≤ count)
    (fills : Fills (count - front.length) later result) :
    Fills count source (after front result) := by
  cases fills with
  | filled more counted =>
    refine .filled (took.append more) ?_
    rw [List.length_append]
    omega
  | stopped short =>
    have few : source.deliverable.length < count := by
      rw [took.deliverable, List.length_append]
      omega
    have stopped := Fills.stopped few
    rw [← took.stop] at stopped
    exact stopped

theorem fills_of_enough {current front rest : Bytes} {events : List ReadEvent}
    (cutting : splitAt? count current = some (front, rest)) :
    Fills count ⟨current, events⟩ (fillFrom count current events) := by
  obtain ⟨rfl, counted⟩ := splitAt?_eq_some_iff.1 cutting
  rw [fillFrom.eq_def, cutting]
  exact .filled ⟨by simp [deliverable], rfl⟩ counted

theorem fills_fillFrom (count : Nat) (current : Bytes) (events : List ReadEvent) :
    Fills count ⟨current, events⟩ (fillFrom count current events) := by
  -- Each event that does not stop the stream leaves fewer bytes to be filled from the events after.
  induction events generalizing count current with
  | nil =>
    cases cutting : splitAt? count current with
    | some parts => exact fills_of_enough cutting
    | none =>
      rw [fillFrom, cutting]
      exact .stopped (by simpa [deliverable, deliverableOf] using splitAt?_eq_none_iff.1 cutting)
  | cons event events ih =>
    cases cutting : splitAt? count current with
    | some parts => exact fills_of_enough cutting
    | none =>
      have missing := splitAt?_eq_none_iff.1 cutting
      rw [fillFrom, cutting]
      cases event with
      | data bytes =>
        have took : Took ⟨current, .data bytes :: events⟩ current ⟨bytes, events⟩ := ⟨rfl, rfl⟩
        exact (ih (count - current.length) bytes).after took (Nat.le_of_lt missing)
      | failure error =>
        by_cases interrupts : error.interruptsReading
        · have took : Took ⟨current, .failure error :: events⟩ current ⟨[], events⟩ :=
            ⟨by simp [deliverable, deliverableOf, interrupts], by simp [stop, stopOf, interrupts]⟩
          have again := (ih (count - current.length) []).after took (Nat.le_of_lt missing)
          simpa only [interrupts, if_true] using again
        · -- The bytes at hand are lost with the failure.
          have stopped : Fills count ⟨current, .failure error :: events⟩ _ :=
            .stopped (by simpa [deliverable, deliverableOf, interrupts] using missing)
          simpa [stop, stopOf, interrupts, Stop.failure, Stop.remainder] using stopped
      | ending => exact .stopped (by simpa [deliverable, deliverableOf] using missing)

theorem fills_fill (count : Nat) (source : Source) : Fills count source (source.fill count) :=
  fills_fillFrom count source.current source.events

/-! ## Splits and interruptions -/

/-- Streams that differ at most in how their bytes are split and where they are interrupted. -/
structure Alike (left right : Source) : Prop where
  deliverable : left.deliverable = right.deliverable
  stop : left.stop = right.stop

def SameResult {α : Type} (left right : α × Source) : Prop :=
  left.1 = right.1 ∧ left.2.Alike right.2

theorem Alike.fill {left right : Source} (alike : left.Alike right) (count : Nat) :
    SameResult (left.fill count) (right.fill count) := by
  have leftFills := fills_fill count left
  have rightFills := fills_fill count right
  generalize left.fill count = leftResult at leftFills ⊢
  generalize right.fill count = rightResult at rightFills ⊢
  have sameLength := congrArg List.length alike.deliverable
  -- What is delivered decides whether there is enough, so both streams fill or both stop.
  cases leftFills with
  | filled leftTook leftCounted =>
    have leftLength := congrArg List.length leftTook.deliverable
    rw [List.length_append] at leftLength
    cases rightFills with
    | filled rightTook rightCounted =>
      have shared := leftTook.deliverable.symm.trans (alike.deliverable.trans rightTook.deliverable)
      obtain ⟨rfl, left⟩ := List.append_inj shared (leftCounted.trans rightCounted.symm)
      exact ⟨rfl, left, leftTook.stop.trans (alike.stop.trans rightTook.stop.symm)⟩
    | stopped few => omega
  | stopped few =>
    cases rightFills with
    | filled rightTook rightCounted =>
      have rightLength := congrArg List.length rightTook.deliverable
      rw [List.length_append] at rightLength
      omega
    | stopped _ =>
      rw [alike.stop]
      exact ⟨rfl, rfl, rfl⟩

end Source

end SchemaWire
