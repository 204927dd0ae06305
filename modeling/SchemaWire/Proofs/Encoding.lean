import SchemaWire.Codec.Encode
import SchemaWire.Proofs.CasePath
import SchemaWire.Proofs.Outcome

/-! What a successful encoding consists of.

An encoder succeeds just when it is the emission that writes its bytes, so success is stated as an
equation. A value of an enum is peeled down to its concrete type first; then the identifier and the
payload of that type are all there is.
-/

set_option autoImplicit false

namespace SchemaWire

namespace Emission

variable {bytes : Bytes}

theorem write_inj {other : Bytes} : write bytes = write other ↔ bytes = other := by
  simp [write]

@[simp] theorem fail_ne_write (error : CodecError) : fail error ≠ write bytes := by
  simp [fail, write]

theorem result_eq_ok_iff {emission : Emission} :
    emission.result = .ok bytes ↔ emission = write bytes := by
  obtain ⟨written, outcome⟩ := emission
  cases outcome <;> simp [result, write, Except.map]

theorem andThen_eq_write_iff {first : Emission} {next : Unit → Emission} :
    first.andThen next = write bytes ↔
      ∃ front back, first = write front ∧ next () = write back ∧ bytes = front ++ back := by
  obtain ⟨written, outcome⟩ := first
  generalize later : next () = second
  obtain ⟨more, secondOutcome⟩ := second
  cases outcome with
  | error error => simp [andThen, write]
  | ok _ =>
    simp only [andThen, later, write, Emission.mk.injEq, and_true]
    constructor
    · rintro ⟨rfl, rfl⟩
      exact ⟨written, more, rfl, ⟨rfl, rfl⟩, rfl⟩
    · rintro ⟨_, _, rfl, ⟨rfl, rfl⟩, rfl⟩
      exact ⟨rfl, rfl⟩

theorem andThen_write_nil (first : Emission) : (first.andThen fun () => write []) = first := by
  obtain ⟨written, outcome⟩ := first
  cases outcome <;> simp [andThen, write]

theorem prefixed_eq_write_iff {part : Emission} :
    part.prefixed = write bytes ↔ ∃ piece, part = write piece ∧ bytes = Varint.prefixed piece := by
  obtain ⟨written, outcome⟩ := part
  cases outcome <;> simp [prefixed, write, fail, eq_comm]

end Emission

namespace Codec

variable {codec : Codec} {room : Nat} {expected type : String} {value : Value} {bytes : Bytes}
  {definition : Definition}

/-! ## Parts -/

@[simp] theorem encodeFields_nil (codec : Codec) (room : Nat) :
    encodeFields codec room [] [] = .write [] := by
  rw [encodeFields]
  simp

theorem encodeItems_eq_encodeFields (codec : Codec) (room : Nat) (type : String)
    (values : List Value) :
    encodeItems codec room type values =
      encodeFields codec room (List.replicate values.length type) values := by
  induction values with
  | nil => rw [encodeItems, List.length_nil, List.replicate_zero, encodeFields_nil]
  | cons value values ih =>
    rw [encodeItems, List.length_cons, List.replicate_succ, encodeFields, ih]

theorem encodeFields_congr {other : Codec} {types : List String} {values : List Value}
    (each : ∀ typed ∈ types.zip values,
      encodeAt codec room typed.1 typed.2 = encodeAt other room typed.1 typed.2) :
    encodeFields codec room types values = encodeFields other room types values := by
  induction values generalizing types with
  | nil => rw [encodeFields.eq_def, encodeFields.eq_def other]
  | cons value values ih =>
    cases types with
    | nil => rw [encodeFields.eq_def, encodeFields.eq_def other]
    | cons type types =>
      rw [List.zip_cons_cons, List.forall_mem_cons] at each
      rw [encodeFields, encodeFields, each.1, ih each.2]

theorem encodeFields_cons_eq_write_iff {types : List String} {values : List Value} :
    encodeFields codec room (type :: types) (value :: values) = .write bytes ↔
      ∃ piece back, encodeAt codec room type value = .write piece ∧
        encodeFields codec room types values = .write back ∧
        bytes = Varint.prefixed piece ++ back := by
  rw [encodeFields, Emission.andThen_eq_write_iff]
  constructor
  · rintro ⟨_, back, front, rest, rfl⟩
    obtain ⟨piece, written, rfl⟩ := Emission.prefixed_eq_write_iff.1 front
    exact ⟨piece, back, written, rest, rfl⟩
  · rintro ⟨piece, back, written, rest, rfl⟩
    exact ⟨_, back, Emission.prefixed_eq_write_iff.2 ⟨piece, written, rfl⟩, rest, rfl⟩

/-! ## Payloads -/

def encodePayload (codec : Codec) (room : Nat) (definition : Definition) (value : Value) :
    Emission :=
  match definition.shape, value with
  | .singleton, .singleton => .write []
  | .builtin representation, .builtin primitive =>
    encodePrimitive definition.name representation primitive
  | .record fields, .record values =>
    if fields.length = values.length then
      encodeFields codec room (fields.map (·.resolve definition.name)) values
    else .fail (.conversion definition.name (.wrongFieldCount fields.length values.length))
  | .list element, .list items =>
    (Emission.write (Varint.encodeWord (UInt64.ofNat items.length))).andThen fun () =>
      encodeItems codec room (element.resolve definition.name) items
  | _, value => wrongKind definition value

theorem encodeAt_concrete (found : codec.types.find? type = some definition)
    (concrete : definition.kind ≠ .enum) :
    encodeAt codec (room + 1) type value =
      (encodeIdentifier codec type).andThen fun () =>
        encodePayload codec room definition value := by
  have bound : codec.definition type = .ok definition := by simp [Codec.definition, found]
  rw [encodeAt.eq_def]
  simp only [bound, encodePayload]
  cases shape : definition.shape with
  | enum cases => exact absurd (by simp [Definition.kind, shape, Shape.kind]) concrete
  -- A singleton is its identifier alone; every other kind writes it first anyway.
  | singleton =>
    cases value with
    | singleton => exact (Emission.andThen_write_nil _).symm
    | _ => rfl
  | _ => cases value <;> rfl

theorem encodeAt_case {case : String} {payload : Value}
    (found : codec.types.find? type = some definition) (enum : definition.kind = .enum)
    (reference : case ∈ definition.resolvedReferences) :
    encodeAt codec (room + 1) type (.enum case payload) =
      encodeAt codec (room + 1) case payload := by
  have bound : codec.definition type = .ok definition := by simp [Codec.definition, found]
  rw [encodeAt]
  simp only [bound]
  cases shape : definition.shape with
  | enum cases => exact if_pos (List.contains_iff_mem.2 reference)
  | _ => simp [Definition.kind, shape, Shape.kind] at enum

theorem encodeIdentifier_eq_write_iff :
    encodeIdentifier codec type = .write bytes ↔
      ∃ identifier, codec.identifiers.identifier? type = some identifier ∧
        bytes = Varint.encodeWord (UInt64.ofNat identifier) := by
  cases numbered : codec.identifiers.identifier? type <;>
    simp [encodeIdentifier, identifier, numbered, Emission.write_inj, eq_comm]

/-! ## Peeling off enums -/

theorem encodeAt_bound (written : encodeAt codec room type value = .write bytes) :
    ∃ inner definition, room = inner + 1 ∧ codec.types.find? type = some definition := by
  rw [encodeAt.eq_def] at written
  cases room with
  | zero => exact absurd written (Emission.fail_ne_write _)
  | succ inner =>
    cases found : codec.types.find? type with
    | none =>
      simp only [Codec.definition, found] at written
      exact absurd written (Emission.fail_ne_write _)
    | some definition => exact ⟨inner, definition, rfl, rfl⟩

theorem encodeAt_enum (found : codec.types.find? type = some definition)
    (enum : definition.kind = .enum)
    (written : encodeAt codec (room + 1) type value = .write bytes) :
    ∃ case payload, value = .enum case payload ∧ case ∈ definition.resolvedReferences ∧
      encodeAt codec (room + 1) case payload = .write bytes := by
  have bound : codec.definition type = .ok definition := by simp [Codec.definition, found]
  rw [encodeAt.eq_def] at written
  simp only [bound] at written
  cases shape : definition.shape with
  | enum references =>
    rw [shape] at written
    cases value with
    | enum case payload =>
      by_cases reference : case ∈ definition.resolvedReferences
      · have direct := List.contains_iff_mem.2 reference
        exact ⟨case, payload, rfl, reference, (if_pos direct).symm.trans written⟩
      · have indirect := fun direct => reference (List.contains_iff_mem.1 direct)
        exact absurd ((if_neg indirect).symm.trans written) (Emission.fail_ne_write _)
    | _ => exact absurd written (Emission.fail_ne_write _)
  | _ => simp [Definition.kind, shape, Shape.kind] at enum

/-- A value that can be written is a payload of a concrete type, wrapped in cases that lead to that
type. -/
theorem encodeAt_cases (value : Value) {expected : String}
    (written : encodeAt codec (room + 1) expected value = .write bytes) :
    ∃ path type payload definition, value = payload.wrap path ∧
      CaseChain codec.types.definitions expected path type ∧
      codec.types.find? type = some definition ∧ definition.kind ≠ .enum ∧
      (encodeIdentifier codec type).andThen (fun () =>
        encodePayload codec room definition payload) = .write bytes := by
  -- Cases are taken off until a type is concrete; each one makes the value smaller.
  obtain ⟨_, definition, _, found⟩ := encodeAt_bound written
  by_cases enum : definition.kind = .enum
  · obtain ⟨case, payload, rfl, reference, written⟩ := encodeAt_enum found enum written
    obtain ⟨path, type, payload, concrete, rfl, chain, rest⟩ := encodeAt_cases payload written
    obtain ⟨member, rfl⟩ := Namespace.find?_eq_some_iff.1 found
    exact ⟨case :: path, type, payload, concrete, rfl, .step member enum reference chain, rest⟩
  · rw [encodeAt_concrete found enum] at written
    exact ⟨[], expected, value, definition, rfl, .here expected, found, enum, written⟩
termination_by value

theorem encodeAt_wrap {path : List String}
    (chain : CaseChain codec.types.definitions expected path type) (value : Value) :
    encodeAt codec (room + 1) expected (value.wrap path) =
      encodeAt codec (room + 1) type value := by
  induction chain with
  | here _ => rfl
  | @step definition case target path member enum reference _ ih =>
    have found := Namespace.find?_eq_some_iff.2 ⟨member, rfl⟩
    exact (encodeAt_case found enum reference).trans ih

end Codec

end SchemaWire
