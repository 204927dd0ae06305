import SchemaWire.Proofs.Typing
import SchemaWire.Proofs.Varint

/-! Where a failure to encode comes from.

An encoding fails at one node of the value, under a chain of cases and parts that leads there. The
error says what is wrong at that node: it lies too deep, its type is not bound or has no number, its
top does not suit the type, or it is a number that is too long.
-/

set_option autoImplicit false

namespace SchemaWire

namespace Emission

variable {first : Emission} {next : Unit → Emission} {error : CodecError} {bytes : Bytes}

theorem result_eq_error_iff : first.result = .error error ↔ first.outcome = .error error := by
  obtain ⟨written, outcome⟩ := first
  cases outcome <;> simp [result, Except.map]

theorem andThen_error_cases (failed : (first.andThen next).outcome = .error error) :
    first.outcome = .error error ∨ (next ()).outcome = .error error := by
  obtain ⟨written, outcome⟩ := first
  cases outcome with
  | error _ => exact .inl failed
  | ok _ => exact .inr failed

theorem prefixed_error (failed : first.prefixed.outcome = .error error) :
    first.outcome = .error error := by
  obtain ⟨written, outcome⟩ := first
  cases outcome with
  | error _ => exact failed
  | ok _ => cases failed

def stop (bytes : Bytes) (error : CodecError) : Emission := ⟨bytes, .error error⟩

theorem fail_eq_stop_iff {other : CodecError} :
    fail other = stop bytes error ↔ error = other ∧ bytes = [] := by
  simp [fail, stop, eq_comm, and_comm]

@[simp] theorem write_ne_stop (written : Bytes) : write written ≠ stop bytes error := by
  simp [write, stop]

theorem eq_stop_of_outcome (failed : first.outcome = .error error) :
    first = stop first.written error := by
  rw [stop, ← failed]

theorem eq_of_fail {other : CodecError} (failed : (fail other).outcome = .error error) :
    error = other :=
  (Except.error.inj failed).symm

end Emission

namespace Codec

variable {codec : Codec} {room : Nat} {type : String} {value : Value} {definition : Definition}
  {error : CodecError} {residue written : Bytes}

/-- The error with which the encoding of a value fails, with `room` levels of nesting allowed. -/
inductive EncodeFailure (codec : Codec) : Nat → String → Value → CodecError → Prop where
  | tooDeep (type : String) (value : Value) :
      EncodeFailure codec 0 type value (.conversion type (.tooDeep codec.maxDepth))
  | unbound {room : Nat} {type : String} {value : Value} :
      codec.types.find? type = none → EncodeFailure codec (room + 1) type value (.unknownType type)
  | unnumbered {room : Nat} {type : String} {value : Value} {definition : Definition} :
      codec.types.find? type = some definition → codec.identifiers.identifier? type = none →
      EncodeFailure codec (room + 1) type value (.unknownType type)
  | misfit {room : Nat} {type : String} {value : Value} {definition : Definition}
      (cause : CodecRefusal) :
      codec.types.find? type = some definition → ¬ definition.Admits value →
      EncodeFailure codec (room + 1) type value (.conversion definition.name cause)
  | tooLong {room n : Nat} {type : String} {number : Varint.TooLong} :
      Varint.encode n = .error number →
      EncodeFailure codec (room + 1) type (.builtin (.varint n)) (.ofTooLong number)
  | case {room : Nat} {type case : String} {payload : Value} {definition : Definition}
      {error : CodecError} :
      codec.types.find? type = some definition → definition.kind = .enum →
      case ∈ definition.resolvedReferences →
      EncodeFailure codec (room + 1) case payload error →
      EncodeFailure codec (room + 1) type (.enum case payload) error
  | part {room : Nat} {type : String} {value : Value} {definition : Definition}
      {error : CodecError} {typed : String × Value} :
      codec.types.find? type = some definition → typed ∈ definition.typedParts value →
      EncodeFailure codec room typed.1 typed.2 error →
      EncodeFailure codec (room + 1) type value error

/-! ## Parts and payloads -/

theorem encodeFields_error {types : List String} {values : List Value}
    (failed : (encodeFields codec room types values).outcome = .error error) :
    ∃ typed ∈ types.zip values, (encodeAt codec room typed.1 typed.2).outcome = .error error := by
  induction values generalizing types with
  | nil =>
    rw [encodeFields.eq_def] at failed
    cases failed
  | cons value values ih =>
    cases types with
    | nil =>
      rw [encodeFields.eq_def] at failed
      cases failed
    | cons type types =>
      rw [encodeFields] at failed
      rcases Emission.andThen_error_cases failed with first | later
      · exact ⟨(type, value), List.mem_cons_self, Emission.prefixed_error first⟩
      · obtain ⟨typed, member, failed⟩ := ih later
        exact ⟨typed, List.mem_cons_of_mem _ member, failed⟩

theorem encodePrimitive_eq_stop_iff {representation : Representation} {primitive : Primitive} :
    encodePrimitive type representation primitive = .stop residue error ↔
      (representation ≠ primitive.representation ∧
          error = .conversion type
            (.wrongRepresentation representation primitive.representation) ∨
        ∃ n number, representation = .varint ∧ primitive = .varint n ∧
          Varint.encode n = .error number ∧ error = .ofTooLong number) ∧ residue = [] := by
  cases representation <;> cases primitive
  case varint.varint n =>
    cases put : Varint.encode n <;>
      simp [encodePrimitive, put, Primitive.representation, Emission.fail_eq_stop_iff]
  all_goals simp [encodePrimitive, Primitive.representation, Emission.fail_eq_stop_iff]

theorem encodePayload_error (concrete : definition.kind ≠ .enum)
    (failed : (encodePayload codec room definition value).outcome = .error error) :
    (¬ definition.Admits value ∧ ∃ cause, error = .conversion definition.name cause) ∨
      (∃ n number, value = .builtin (.varint n) ∧ Varint.encode n = .error number ∧
        error = .ofTooLong number) ∨
      ∃ typed ∈ definition.typedParts value,
        (encodeAt codec room typed.1 typed.2).outcome = .error error := by
  simp only [encodePayload] at failed
  split at failed
  · cases failed
  · rename_i representation primitive shape
    obtain ⟨⟨other, rfl⟩ | ⟨n, number, -, rfl, long, rfl⟩, -⟩ :=
      encodePrimitive_eq_stop_iff.1 (Emission.eq_stop_of_outcome failed)
    · exact .inl ⟨by simpa [Definition.Admits, shape] using other, _, rfl⟩
    · exact .inr (.inl ⟨n, number, rfl, long, rfl⟩)
  · rename_i fields values shape
    split at failed
    · obtain ⟨typed, member, failed⟩ := encodeFields_error failed
      refine .inr (.inr ⟨typed, ?_, failed⟩)
      rwa [Definition.typedParts_record shape]
    · rename_i miscounted
      exact .inl ⟨by simpa [Definition.Admits, shape] using miscounted, _,
        Emission.eq_of_fail failed⟩
  · rename_i element items shape
    rcases Emission.andThen_error_cases failed with count | failed
    · cases count
    · rw [encodeItems_eq_encodeFields] at failed
      obtain ⟨typed, member, failed⟩ := encodeFields_error failed
      refine .inr (.inr ⟨typed, ?_, failed⟩)
      rwa [Definition.typedParts_list shape]
  · rename_i value _ _ noSingleton noBuiltin noRecord noList
    refine .inl ⟨?_, _, Emission.eq_of_fail failed⟩
    intro admits
    cases shape : definition.shape <;> cases value <;>
      simp_all [Definition.Admits, Definition.kind, Shape.kind]

/-! ## Values -/

theorem encodeAt_zero : encodeAt codec 0 type value =
    .fail (.conversion type (.tooDeep codec.maxDepth)) := by
  rw [encodeAt.eq_def]

theorem encodeAt_unbound (unbound : codec.types.find? type = none) :
    encodeAt codec (room + 1) type value = .fail (.unknownType type) := by
  rw [encodeAt.eq_def]
  simp only [Codec.definition, unbound]

theorem encodeAt_of_kind_ne (found : codec.types.find? type = some definition)
    (enum : definition.kind = .enum) (other : value.kind ≠ .enum) :
    encodeAt codec (room + 1) type value =
      .fail (.conversion definition.name (.wrongKind value.kind .enum)) := by
  have bound : codec.definition type = .ok definition := by simp [Codec.definition, found]
  rw [← enum, encodeAt.eq_def]
  simp only [bound]
  cases shape : definition.shape with
  | enum references =>
    cases value with
    | enum case payload => exact absurd rfl other
    | _ => rfl
  | _ => simp [Definition.kind, shape, Shape.kind] at enum

theorem encodeAt_of_foreign_case {case : String} {payload : Value}
    (found : codec.types.find? type = some definition) (enum : definition.kind = .enum)
    (foreign : case ∉ definition.resolvedReferences) :
    encodeAt codec (room + 1) type (.enum case payload) =
      .fail (.conversion definition.name (.notACase case definition.name)) := by
  have bound : codec.definition type = .ok definition := by simp [Codec.definition, found]
  rw [encodeAt]
  simp only [bound]
  cases shape : definition.shape with
  | enum references => exact if_neg (mt List.contains_iff_mem.1 foreign)
  | _ => simp [Definition.kind, shape, Shape.kind] at enum

theorem encodeAt_enum_misfit (found : codec.types.find? type = some definition)
    (enum : definition.kind = .enum) (misfit : ¬ definition.Admits value) :
    ∃ cause, encodeAt codec (room + 1) type value =
      .fail (.conversion definition.name cause) := by
  by_cases wrapped : value.kind = .enum
  · obtain ⟨case, payload, rfl⟩ := Value.kind_eq_enum_iff.1 wrapped
    have foreign := mt (Definition.admits_case enum) misfit
    exact ⟨_, encodeAt_of_foreign_case found enum foreign⟩
  · exact ⟨_, encodeAt_of_kind_ne found enum wrapped⟩

theorem encodeIdentifier_eq_stop_iff :
    encodeIdentifier codec type = .stop written error ↔
      codec.identifiers.identifier? type = none ∧ error = .unknownType type ∧ written = [] := by
  cases numbered : codec.identifiers.identifier? type <;>
    simp [encodeIdentifier, identifier, numbered, Emission.fail_eq_stop_iff]

theorem encodeFailure_of_encodeAt
    (failed : (encodeAt codec room type value).outcome = .error error) :
    EncodeFailure codec room type value error := by
  induction value using Value.induction generalizing room type with
  | step value payloads parts =>
    cases room with
    | zero =>
      rw [encodeAt_zero] at failed
      exact Emission.eq_of_fail failed ▸ .tooDeep type value
    | succ room =>
      cases found : codec.types.find? type with
      | none =>
        rw [encodeAt_unbound found] at failed
        exact Emission.eq_of_fail failed ▸ .unbound found
      | some definition =>
        by_cases enum : definition.kind = .enum
        · by_cases admits : definition.Admits value
          · -- A case is written as its payload is, so the payload is what fails.
            obtain ⟨case, payload, rfl, reference⟩ := admits.exists_case enum
            rw [encodeAt_case found enum reference] at failed
            exact .case found enum reference (payloads case payload rfl failed)
          · obtain ⟨cause, same⟩ := encodeAt_enum_misfit found enum admits
            rw [same] at failed
            exact Emission.eq_of_fail failed ▸ .misfit cause found admits
        · rw [encodeAt_concrete found enum] at failed
          rcases Emission.andThen_error_cases failed with identified | failed
          · obtain ⟨unnumbered, rfl, -⟩ :=
              encodeIdentifier_eq_stop_iff.1 (Emission.eq_stop_of_outcome identified)
            exact .unnumbered found unnumbered
          · rcases encodePayload_error enum failed with
              ⟨misfit, cause, rfl⟩ | ⟨n, number, rfl, long, rfl⟩ | ⟨typed, member, failed⟩
            · exact .misfit cause found misfit
            · exact .tooLong long
            · exact .part found member (parts typed.2 (Definition.snd_mem_parts member) failed)

end Codec

end SchemaWire
