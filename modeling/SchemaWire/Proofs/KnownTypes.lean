import SchemaWire.Codec.Decode
import SchemaWire.Proofs.EncodeFailure
import SchemaWire.Proofs.JsonParts
import SchemaWire.Proofs.Validation

/-! In a valid namespace no operation meets a type it does not know.

A type that is bound refers to bound types only, and the numbers of the namespace's own table stand
for bound types. So from a bound type on every type that comes up is bound, and what remains are the
errors that blame the input. A type that is not bound is refused at once.
-/

set_option autoImplicit false

namespace SchemaWire

open Outcome (FailsOnlyWith failsOnlyWith_ok failsOnlyWith_error)

/-- The error blames the bytes or the value. -/
def CodecError.IsConversion (error : CodecError) : Prop :=
  ∃ type cause, error = .conversion type cause

def JsonError.IsRefusal (error : JsonError) : Prop :=
  ∃ type cause, error = .refused type cause

namespace Namespace

variable {types : Namespace} {type : String} {definition : Definition}

theorem Closed.contains_of_zip {α : Type} {parts : List α} {count : Nat} (closed : types.Closed)
    (found : types.find? type = some definition) :
    ∀ typed ∈ (definition.partTypes count).zip parts, types.contains typed.1 = true := by
  intro typed member
  refine closed.contains_of_references found _ ?_
  exact Definition.mem_resolvedReferences_of_partTypes (List.of_mem_zip member).1

end Namespace

namespace Codec

variable {codec : Codec} {room : Nat} {type expected : String} {bytes : Bytes} {value : Value}
  {definition : Definition} {error : CodecError}

/-! ## Reading -/

theorem conversion_reading {α : Type} (type : String) (cause : CodecRefusal)
    (read : Except Varint.Refusal α) :
    FailsOnlyWith CodecError.IsConversion (reading type cause read) := by
  cases read with
  | error _ => exact failsOnlyWith_error ⟨type, cause, rfl⟩
  | ok a => exact failsOnlyWith_ok a

theorem conversion_takeCharacters (type : String) (count : Nat) (bytes : Bytes) :
    FailsOnlyWith CodecError.IsConversion (takeCharacters type count bytes) := by
  induction count generalizing bytes with
  | zero => exact failsOnlyWith_ok _
  | succ count ih =>
    refine (conversion_reading _ _ _).bind fun ⟨codePoint, later⟩ _ => ?_
    dsimp only
    split
    · exact failsOnlyWith_error ⟨type, _, rfl⟩
    · exact (ih _).bind fun _ _ => failsOnlyWith_ok _

theorem conversion_takePrimitive (type : String) (representation : Representation)
    (bytes : Bytes) :
    FailsOnlyWith CodecError.IsConversion (takePrimitive type representation bytes) := by
  cases representation with
  | varint => exact (conversion_reading _ _ _).bind fun _ _ => failsOnlyWith_ok _
  | text =>
    refine FailsOnlyWith.bind ?_ fun _ _ => failsOnlyWith_ok _
    refine (conversion_reading _ _ _).bind fun ⟨count, later⟩ _ => ?_
    dsimp only
    split
    · exact failsOnlyWith_error ⟨type, _, rfl⟩
    · exact (conversion_takeCharacters _ _ _).bind fun _ _ => failsOnlyWith_ok _
  | bytes => exact failsOnlyWith_ok _
  | bool =>
    simp only [takePrimitive]
    split
    · exact failsOnlyWith_error ⟨type, _, rfl⟩
    · split
      · exact failsOnlyWith_ok _
      · split
        · exact failsOnlyWith_ok _
        · exact failsOnlyWith_error ⟨type, _, rfl⟩

section

variable {read : String → Bytes → Except CodecError Value}

theorem conversion_takeFields {fields : List String}
    (parts : ∀ field ∈ fields, ∀ piece, FailsOnlyWith CodecError.IsConversion (read field piece))
    (type : String) (index : Nat) (bytes : Bytes) :
    FailsOnlyWith CodecError.IsConversion (takeFields read type index fields bytes) := by
  induction fields generalizing index bytes with
  | nil => exact failsOnlyWith_ok _
  | cons field fields ih =>
    rw [List.forall_mem_cons] at parts
    refine (conversion_reading _ _ _).bind fun _ _ => ?_
    refine (parts.1 _).bind fun _ _ => ?_
    exact (ih parts.2 _ _).bind fun _ _ => failsOnlyWith_ok _

theorem conversion_takeItems {element : String}
    (parts : ∀ piece, FailsOnlyWith CodecError.IsConversion (read element piece))
    (type : String) (index count : Nat) (bytes : Bytes) :
    FailsOnlyWith CodecError.IsConversion (takeItems (read element) type index count bytes) := by
  induction count generalizing index bytes with
  | zero => exact failsOnlyWith_ok _
  | succ count ih =>
    refine (conversion_reading _ _ _).bind fun _ _ => ?_
    refine (parts _).bind fun _ _ => ?_
    exact (ih _ _).bind fun _ _ => failsOnlyWith_ok _

theorem conversion_takePayload
    (parts : ∀ part ∈ definition.resolvedReferences, ∀ piece,
      FailsOnlyWith CodecError.IsConversion (read part piece)) (bytes : Bytes) :
    FailsOnlyWith CodecError.IsConversion (takePayload read definition bytes) := by
  simp only [takePayload]
  split
  · exact failsOnlyWith_ok _
  · exact (conversion_takePrimitive _ _ _).bind fun _ _ => failsOnlyWith_ok _
  · rename_i fields shape
    refine FailsOnlyWith.bind (conversion_takeFields ?_ _ _ _) fun _ _ => failsOnlyWith_ok _
    rwa [Definition.resolvedReferences_record shape] at parts
  · rename_i element shape
    refine (conversion_reading _ _ _).bind fun ⟨count, later⟩ _ => ?_
    dsimp only
    split
    · exact failsOnlyWith_error ⟨_, _, rfl⟩
    · refine FailsOnlyWith.bind (conversion_takeItems ?_ _ _ _ _) fun _ _ => failsOnlyWith_ok _
      rw [Definition.resolvedReferences_list shape] at parts
      exact parts _ (List.mem_singleton_self _)
  · exact failsOnlyWith_error ⟨_, _, rfl⟩

end

theorem conversion_exactly {read : Except CodecError (Value × Bytes)}
    (conversion : FailsOnlyWith CodecError.IsConversion read) :
    FailsOnlyWith CodecError.IsConversion (exactly type read) := by
  refine conversion.bind fun ⟨value, rest⟩ _ => ?_
  dsimp only
  split
  · exact failsOnlyWith_ok _
  · exact failsOnlyWith_error ⟨_, _, rfl⟩

theorem conversion_definition (bound : codec.types.contains type = true) :
    FailsOnlyWith CodecError.IsConversion (codec.definition type) := by
  obtain ⟨definition, found⟩ := Namespace.contains_iff.1 bound
  rw [Codec.definition, found]
  exact failsOnlyWith_ok definition

theorem conversion_takeAt (closed : codec.types.Closed)
    (own : codec.identifiers = .assign codec.types) (room : Nat)
    (bound : codec.types.contains expected = true) (bytes : Bytes) :
    FailsOnlyWith CodecError.IsConversion (takeAt codec room expected bytes) := by
  induction room generalizing expected bytes with
  | zero => exact failsOnlyWith_error ⟨_, _, rfl⟩
  | succ room ih =>
    refine (conversion_definition bound).bind fun _ _ => ?_
    refine (conversion_reading _ _ _).bind fun _ _ => ?_
    dsimp only
    split
    · exact failsOnlyWith_error ⟨_, _, rfl⟩
    · rename_i actual named
      -- A number of the own table stands for a bound type.
      have known : codec.types.contains actual = true := by
        rw [own] at named
        exact IdentifierTable.mem_names_assign.1 (IdentifierTable.mem_names_of_name? named)
      refine (conversion_definition known).bind fun definition found => ?_
      split
      · exact failsOnlyWith_error ⟨_, _, rfl⟩
      · split
        · exact failsOnlyWith_error ⟨_, _, rfl⟩
        · refine (conversion_takePayload ?_ _).bind fun _ _ => failsOnlyWith_ok _
          intro part reference piece
          have found : codec.types.find? actual = some definition := by
            cases lookup : codec.types.find? actual <;> simp_all [Codec.definition]
          exact conversion_exactly (ih (closed.contains_of_references found part reference) piece)

/-! ## Writing -/

theorem EncodeFailure.cause (closed : codec.types.Closed)
    (own : codec.identifiers = .assign codec.types)
    (failure : EncodeFailure codec room type value error)
    (bound : codec.types.contains type = true) :
    error.IsConversion ∨
      (∃ length, error = .countTooBig length) ∧ ∃ n ∈ value.numbers, 2 ^ 2040 ≤ n := by
  induction failure with
  | tooDeep type value => exact .inl ⟨_, _, rfl⟩
  | unbound unbound =>
    obtain ⟨definition, found⟩ := Namespace.contains_iff.1 bound
    cases unbound.symm.trans found
  | unnumbered _ unnumbered =>
    rw [own, IdentifierTable.identifier?_eq_none_iff, IdentifierTable.mem_names_assign] at unnumbered
    exact absurd bound unnumbered
  | misfit cause => exact .inl ⟨_, cause, rfl⟩
  | @tooLong _ n _ number long =>
    exact .inr ⟨⟨number.length, rfl⟩, n, List.mem_singleton_self n,
      Varint.le_of_encode_eq_error long⟩
  | case found _ reference _ ih => exact ih (closed.contains_of_references found _ reference)
  | part found member _ ih =>
    refine (ih (closed.contains_of_zip found _ member)).imp_right ?_
    rintro ⟨long, n, held, large⟩
    exact ⟨long, n, Value.mem_numbers_of_part (Definition.snd_mem_parts member) held, large⟩

end Codec

namespace Namespace

variable {types : Namespace}

/-! ## JSON -/

theorem refusal_convertParts {α β : Type} {convert : String → α → Except JsonError β}
    {fields : List String} {parts : List α}
    (bound : ∀ field ∈ fields, types.contains field = true)
    (each : ∀ part ∈ parts, ∀ {field}, types.contains field = true →
      FailsOnlyWith JsonError.IsRefusal (convert field part)) :
    FailsOnlyWith JsonError.IsRefusal (convertParts convert fields parts) :=
  convertParts_failsOnlyWith fun _ member =>
    each _ (List.of_mem_zip member).2 (bound _ (List.of_mem_zip member).1)

theorem refusal_valueOfJson (closed : types.Closed) (json : Json) {type : String}
    (bound : types.contains type = true) :
    FailsOnlyWith JsonError.IsRefusal (types.valueOfJson type json) := by
  induction json using Json.induction generalizing type with
  | node json parts =>
    obtain ⟨definition, found⟩ := contains_iff.1 bound
    have references := closed.contains_of_references found
    rw [valueOfJson.eq_def]
    simp only [found]
    split
    · exact failsOnlyWith_ok _
    · exact failsOnlyWith_error ⟨_, _, rfl⟩
    · rename_i fields items shape
      split
      · rw [fieldsOfJson_eq_convertParts]
        rw [Definition.resolvedReferences_record shape] at references
        exact (refusal_convertParts references parts).bind fun _ _ => failsOnlyWith_ok _
      · exact failsOnlyWith_error ⟨_, _, rfl⟩
    · exact failsOnlyWith_error ⟨_, _, rfl⟩
    · rename_i element items shape
      rw [itemsOfJson_eq_convertParts]
      refine FailsOnlyWith.bind (refusal_convertParts ?_ parts) fun _ _ => failsOnlyWith_ok _
      rw [Definition.resolvedReferences_list shape, List.forall_mem_singleton] at references
      intro name member
      exact List.eq_of_mem_replicate member ▸ references
    · exact failsOnlyWith_error ⟨_, _, rfl⟩
    · rename_i case inner shape
      split
      · rename_i reference
        refine FailsOnlyWith.bind (parts inner ?_ ?_) fun _ _ => failsOnlyWith_ok _
        · exact List.mem_singleton_self inner
        · exact references case (List.contains_iff_mem.1 reference)
      · exact failsOnlyWith_error ⟨_, _, rfl⟩
    · exact failsOnlyWith_error ⟨_, _, rfl⟩
    · exact failsOnlyWith_error ⟨_, _, rfl⟩
    · split
      · exact failsOnlyWith_ok _
      · exact failsOnlyWith_error ⟨_, _, rfl⟩

theorem refusal_jsonOfValue (closed : types.Closed) (value : Value) {type : String}
    (bound : types.contains type = true) :
    FailsOnlyWith JsonError.IsRefusal (types.jsonOfValue type value) := by
  induction value using Value.induction generalizing type with
  | step value payloads parts =>
    obtain ⟨definition, found⟩ := contains_iff.1 bound
    have references := closed.contains_of_references found
    rw [jsonOfValue.eq_def]
    simp only [found]
    split
    · exact failsOnlyWith_ok _
    · rename_i fields values shape
      split
      · rw [jsonOfFields_eq_convertParts]
        rw [Definition.resolvedReferences_record shape] at references
        exact (refusal_convertParts references parts).bind fun _ _ => failsOnlyWith_ok _
      · exact failsOnlyWith_error ⟨_, _, rfl⟩
    · rename_i element values shape
      rw [jsonOfItems_eq_convertParts]
      refine FailsOnlyWith.bind (refusal_convertParts ?_ parts) fun _ _ => failsOnlyWith_ok _
      rw [Definition.resolvedReferences_list shape, List.forall_mem_singleton] at references
      intro name member
      exact List.eq_of_mem_replicate member ▸ references
    · rename_i case inner shape
      split
      · rename_i reference
        refine FailsOnlyWith.bind (payloads case inner rfl ?_) fun _ _ => failsOnlyWith_ok _
        exact references case (List.contains_iff_mem.1 reference)
      · exact failsOnlyWith_error ⟨_, _, rfl⟩
    · split
      · exact failsOnlyWith_ok _
      · exact failsOnlyWith_error ⟨_, _, rfl⟩
    · exact failsOnlyWith_error ⟨_, _, rfl⟩

end Namespace

namespace Codec

variable {codec : Codec} {type : String}

/-! ## Types that are not bound -/

theorem take_unbound (unbound : codec.types.find? type = none) (bytes : Bytes) :
    codec.take type bytes = .error (.unknownType type) := by
  simp only [take, takeAt, Codec.definition, unbound]
  rfl

theorem emit_unbound (unbound : codec.types.find? type = none) (value : Value) :
    codec.emit type value = .fail (.unknownType type) :=
  encodeAt_unbound unbound

/-- Whether the type that was asked for is bound decides whether an operation reports an unknown
type, and it never reports another one. -/
theorem errors_of_valid (codec : Codec) (valid : codec.types.validate = .ok ())
    (own : codec.identifiers = .assign codec.types) (type : String) :
    (codec.types.contains type = true →
      (∀ bytes error, codec.decode type bytes = .error error → error.IsConversion) ∧
      (∀ value error, codec.encode type value = .error error →
        error.IsConversion ∨
          (∃ length, error = .countTooBig length) ∧ ∃ n ∈ value.numbers, 2 ^ 2040 ≤ n) ∧
      (∀ json name, codec.types.valueOfJson type json ≠ .error (.unknownType name)) ∧
      (∀ value name, codec.types.jsonOfValue type value ≠ .error (.unknownType name))) ∧
    (codec.types.contains type = false →
      (∀ bytes, codec.decode type bytes = .error (.unknownType type)) ∧
      (∀ value, codec.encode type value = .error (.unknownType type)) ∧
      (∀ json, codec.types.valueOfJson type json = .error (.unknownType type)) ∧
      (∀ value, codec.types.jsonOfValue type value = .error (.unknownType type))) := by
  have closed := Namespace.validate_eq_ok_iff.1 valid
  constructor
  · intro bound
    refine ⟨fun bytes => ?_, fun value error failed => ?_, fun json name refused => ?_,
      fun value name refused => ?_⟩
    · exact conversion_exactly (conversion_takeAt closed own _ bound bytes)
    · have failure := encodeFailure_of_encodeAt (Emission.result_eq_error_iff.1 failed)
      exact failure.cause closed own bound
    · obtain ⟨_, _, same⟩ := Namespace.refusal_valueOfJson closed json bound _ refused
      cases same
    · obtain ⟨_, _, same⟩ := Namespace.refusal_jsonOfValue closed value bound _ refused
      cases same
  · intro unbound
    have missing : codec.types.find? type = none := by
      simpa [Namespace.contains] using unbound
    refine ⟨fun bytes => ?_, fun value => ?_, fun json => ?_, fun value => ?_⟩
    · rw [decode, take_unbound missing]
      rfl
    · rw [encode, emit_unbound missing]
      rfl
    · rw [Namespace.valueOfJson.eq_def, missing]
    · rw [Namespace.jsonOfValue.eq_def, missing]

/-- Whatever is read as a parcel is at worst malformed, and letters are unknown. -/
theorem errors_of_valid_parcels :
    (∀ bytes error, (ofNamespace .parcels).decode "Parcel" bytes = .error error →
        error.IsConversion) ∧
      ∀ bytes, (ofNamespace .parcels).decode "Letter" bytes = .error (.unknownType "Letter") := by
  have valid : (ofNamespace .parcels).types.validate = .ok () := by cbv
  exact ⟨((errors_of_valid _ valid rfl "Parcel").1 (by decide)).1,
    ((errors_of_valid _ valid rfl "Letter").2 (by decide)).1⟩

end Codec

end SchemaWire
