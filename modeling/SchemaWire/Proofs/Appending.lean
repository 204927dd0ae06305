import SchemaWire.Codec.Put
import SchemaWire.Proofs.Encoding
import SchemaWire.Proofs.ValueParts
import SchemaWire.Proofs.VarintWord

/-! Writing onto a buffer is writing, with what was there before in front.

No step looks at its buffer, and the scratch buffer brings nothing from one part to the next, since
it is emptied in between. So each step comes down to an emission: the bytes that it adds to any
buffer, and an outcome that is the same for all of them.
-/

set_option autoImplicit false

namespace SchemaWire

namespace Put

variable {first next step : Put Unit} {emission other : Emission}

/-- Whatever the buffer holds, a step adds the bytes of an emission and ends as it does. -/
def Appends (step : Put Unit) (emission : Emission) : Prop :=
  ∀ buffer, step.onto buffer = (emission.outcome, buffer ++ emission.written)

theorem onto_bind {α : Type} (first : Put α) (next : α → Put Unit) (buffer : Bytes) :
    (first >>= next).onto buffer =
      match first.onto buffer with
      | (.ok a, buffer) => (next a).onto buffer
      | (.error error, buffer) => (.error error, buffer) := by
  simp only [onto, ExceptT.run_bind, StateT.run_bind]
  generalize first.run.run buffer = ended
  obtain ⟨outcome, buffer⟩ := ended
  cases outcome <;> rfl

theorem appends_of_unchanged {outcome : Except CodecError Unit}
    (unchanged : ∀ buffer, step.onto buffer = (outcome, buffer)) : Appends step ⟨[], outcome⟩ := by
  intro buffer
  rw [unchanged, List.append_nil]

theorem appends_return : Appends (pure ()) (.write []) := appends_of_unchanged fun _ => rfl

theorem appends_throw (error : CodecError) : Appends (throw error) (.fail error) :=
  appends_of_unchanged fun _ => rfl

theorem appends_bytes (more : Bytes) : Appends (bytes more) (.write more) := fun _ => rfl

theorem appends_word (number : UInt64) :
    Appends (word number) (.write (Varint.encodeWord number)) := by
  intro buffer
  show _ = (Except.ok (), buffer ++ Varint.encodeWord number)
  rw [← Varint.putWord_eq]
  rfl

theorem Appends.bind (starts : Appends first emission) (goesOn : Appends next other) :
    Appends (do first; next) (emission.andThen fun () => other) := by
  intro buffer
  obtain ⟨written, outcome⟩ := emission
  rw [onto_bind, starts buffer]
  cases outcome with
  | error error => rfl
  | ok _ =>
    show next.onto (buffer ++ written) = _
    rw [goesOn, List.append_assoc]
    rfl

theorem Appends.ite {condition : Prop} [Decidable condition] (holds : Appends first emission)
    (fails : Appends next other) :
    Appends (if condition then first else next) (if condition then emission else other) := by
  by_cases known : condition
  · rwa [if_pos known, if_pos known]
  · rwa [if_neg known, if_neg known]

theorem appends_prefixed (payload : Bytes) :
    Appends (Put.prefixed payload) (.write (Varint.prefixed payload)) :=
  (appends_word _).bind (appends_bytes payload)

theorem appends_text (text : String) :
    Appends (Put.text text) (.write (Codec.encodeText text)) := by
  refine Appends.bind (appends_word _) (?_ : Appends _ (.write _))
  induction text.toList with
  | nil => exact appends_return
  | cons c characters ih => exact (appends_word _).bind ih

theorem appends_varint (n : Nat) :
    Appends (Put.varint n)
      (match Varint.encode n with
        | .ok form => .write form
        | .error number => .fail (.ofTooLong number)) := by
  have put (buffer : Bytes) : (Put.varint n).onto buffer =
      ((Varint.put n buffer).1.mapError .ofTooLong, (Varint.put n buffer).2) := rfl
  simp only [Varint.put_eq] at put
  cases encoded : Varint.encode n with
  | ok form =>
    intro buffer
    rw [put, encoded]
    rfl
  | error number =>
    refine appends_of_unchanged fun buffer => ?_
    rw [put, encoded]
    rfl

/-- A part is put behind its length without regard to what was on the scratch buffer before. -/
theorem Appends.aside (part : Appends step emission) {next : Bytes → Put Unit}
    (goesOn : ∀ scratch, Appends (next scratch) other) (scratch : Bytes) :
    Appends
      (do
        let scratch ← Put.aside (do Put.clear; step) scratch
        Put.prefixed scratch
        next scratch)
      (emission.prefixed.andThen fun () => other) := by
  have cleared : (do Put.clear; step).onto scratch = (emission.outcome, emission.written) :=
    part []
  obtain ⟨written, outcome⟩ := emission
  cases outcome with
  | error error =>
    have failed : Put.aside (do Put.clear; step) scratch = throw error := by
      rw [Put.aside, cleared]
    rw [failed]
    exact appends_throw error
  | ok _ =>
    have finished : Put.aside (do Put.clear; step) scratch = pure written := by
      rw [Put.aside, cleared]
    rw [finished, pure_bind]
    exact (appends_prefixed written).bind (goesOn written)

end Put

namespace Codec

variable {codec : Codec} {room : Nat} {type : String} {value : Value}

open Put (Appends)

theorem appends_putIdentifier (codec : Codec) (type : String) :
    Appends (putIdentifier codec type) (encodeIdentifier codec type) := by
  rw [putIdentifier, encodeIdentifier]
  cases codec.identifier type with
  | ok identifier => exact Put.appends_word _
  | error error => exact Put.appends_throw error

theorem appends_mismatch (definition : Definition) (value : Value) :
    Appends (mismatch definition value) (wrongKind definition value) :=
  Put.appends_throw _

theorem appends_putPrimitive (type : String) (representation : Representation)
    (primitive : Primitive) :
    Appends (putPrimitive type representation primitive)
      (encodePrimitive type representation primitive) := by
  cases representation <;> cases primitive
  case varint.varint n => exact Put.appends_varint n
  case text.text text => exact Put.appends_text text
  case bytes.bytes bytes => exact Put.appends_bytes bytes
  case bool.bool value => exact Put.appends_bytes _
  all_goals exact Put.appends_throw _

theorem appends_putFields {values : List Value}
    (parts : ∀ part ∈ values, ∀ type,
      Appends (putAt codec room type part) (encodeAt codec room type part))
    (types : List String) (scratch : Bytes) :
    Appends (putFields codec room types values scratch) (encodeFields codec room types values) := by
  induction values generalizing types scratch with
  | nil =>
    rw [putFields.eq_def, encodeFields.eq_def]
    exact Put.appends_return
  | cons value values ih =>
    rw [List.forall_mem_cons] at parts
    cases types with
    | nil =>
      rw [putFields.eq_def, encodeFields.eq_def]
      exact Put.appends_return
    | cons type types =>
      rw [putFields, encodeFields]
      exact (parts.1 type).aside (ih parts.2 types) scratch

theorem appends_putItems {values : List Value}
    (parts : ∀ part ∈ values,
      Appends (putAt codec room type part) (encodeAt codec room type part)) (scratch : Bytes) :
    Appends (putItems codec room type values scratch) (encodeItems codec room type values) := by
  induction values generalizing scratch with
  | nil =>
    rw [putItems, encodeItems]
    exact Put.appends_return
  | cons value values ih =>
    rw [List.forall_mem_cons] at parts
    rw [putItems, encodeItems]
    exact parts.1.aside (ih parts.2) scratch

theorem appends_putAt (value : Value) (room : Nat) (type : String) :
    Appends (putAt codec room type value) (encodeAt codec room type value) := by
  induction value using Value.induction generalizing room type with
  | step value payloads parts =>
    cases room with
    | zero =>
      rw [putAt, encodeAt]
      exact Put.appends_throw _
    | succ inner =>
      rw [putAt.eq_def, encodeAt.eq_def]
      dsimp only
      cases codec.definition type with
      | error error => exact Put.appends_throw error
      | ok definition =>
        dsimp only
        have numbered {next : Put Unit} {emission : Emission} (rest : Appends next emission) :
            Appends (do putIdentifier codec type; next)
              ((encodeIdentifier codec type).andThen fun () => emission) :=
          (appends_putIdentifier codec type).bind rest
        cases definition.shape <;> cases value
        case enum.enum cases case payload =>
          exact (payloads case payload rfl (inner + 1) case).ite (Put.appends_throw _)
        case singleton.singleton => exact appends_putIdentifier codec type
        case builtin.builtin representation primitive =>
          exact numbered (appends_putPrimitive definition.name representation primitive)
        case record.record fields values =>
          have inOrder := appends_putFields (fun part member => parts part member inner)
            (fields.map (·.resolve definition.name)) []
          exact numbered (inOrder.ite (Put.appends_throw _))
        case list.list element items =>
          refine numbered ((Put.appends_word _).bind ?_)
          exact appends_putItems (fun part member => parts part member inner _) []
        case enum.singleton | enum.builtin | enum.record | enum.list =>
          exact appends_mismatch _ _
        all_goals exact numbered (appends_mismatch _ _)

/-- What the encoder does to a buffer is to add the emission of the value. -/
theorem encodeInto_eq (codec : Codec) (type : String) (value : Value) (buffer : Bytes) :
    encodeInto codec type value buffer =
      ((codec.emit type value).outcome, buffer ++ (codec.emit type value).written) :=
  appends_putAt value (codec.maxDepth + 1) type buffer

end Codec

end SchemaWire
