import SchemaWire.Proofs.Canonicity
import SchemaWire.Proofs.EncodeFailure
import SchemaWire.Proofs.JsonRoundTrip

/-! The wire and JSON take the same values.

Both take the values that have the type, each by a check of its own. The wire has two limits besides:
numbers have to fit behind one length byte, and records and lists may nest only so deep.
-/

set_option autoImplicit false

namespace SchemaWire

namespace Namespace

variable {types : Namespace} {type : String} {definition : Definition} {value : Value}

/-! ## JSON -/

theorem exists_writes_iff :
    (∃ json, types.Writes definition json value) ↔
      (∀ case payload, value = .enum case payload →
        ∃ inner, types.jsonOfValue case payload = .ok inner) ∧
      ∀ typed ∈ definition.typedParts value, ∃ item, types.jsonOfValue typed.1 typed.2 = .ok item := by
  cases value with
  | record values | list values =>
    rw [Definition.typedParts, ← exists_convertParts_iff]
    simp [Writes]
  | _ => simp [Writes, Definition.typedParts, Value.parts]

theorem exists_jsonOfValue_iff (value : Value) {type : String} :
    (∃ json, types.jsonOfValue type value = .ok json) ↔ types.HasType type value := by
  induction value using Value.induction generalizing type with
  | step value payloads parts =>
    constructor
    · rintro ⟨json, written⟩
      obtain ⟨definition, found, admits, writes⟩ := jsonOfValue_eq_ok_iff.1 written
      obtain ⟨inner, items⟩ := exists_writes_iff.1 ⟨json, writes⟩
      refine .intro found admits (fun case payload same => ?_) fun typed member => ?_
      · exact (payloads case payload same).1 (inner case payload same)
      · exact (parts typed.2 (Definition.snd_mem_parts member)).1 (items typed member)
    · rintro ⟨found, admits, inner, items⟩
      obtain ⟨json, writes⟩ := exists_writes_iff.2
        ⟨fun case payload same => (payloads case payload same).2 (inner case payload same),
        fun typed member =>
          (parts typed.2 (Definition.snd_mem_parts member)).2 (items typed member)⟩
      exact ⟨json, jsonOfValue_eq_ok_iff.2 ⟨_, found, admits, writes⟩⟩

end Namespace

namespace Codec

variable {codec : Codec} {room : Nat} {type : String} {value : Value} {bytes : Bytes}
  {definition : Definition} {error : CodecError}

/-! ## The wire -/

theorem encodeFields_parts {types : List String} {values : List Value}
    (written : encodeFields codec room types values = .write bytes) :
    ∀ typed ∈ types.zip values, ∃ piece, encodeAt codec room typed.1 typed.2 = .write piece := by
  induction values generalizing types bytes with
  | nil => simp
  | cons value values ih =>
    cases types with
    | nil => simp
    | cons type types =>
      obtain ⟨piece, back, first, later, -⟩ := encodeFields_cons_eq_write_iff.1 written
      rw [List.zip_cons_cons, List.forall_mem_cons]
      exact ⟨⟨piece, first⟩, ih later⟩

theorem encodePrimitive_fits {representation : Representation} {primitive : Primitive}
    (written : encodePrimitive type representation primitive = .write bytes) :
    representation = primitive.representation ∧
      ∀ n, primitive = .varint n → n < 2 ^ 2040 := by
  cases primitive with
  | varint n =>
    cases representation with
    | varint =>
      have encoded := encodePrimitive_varint_eq_write_iff.1 written
      refine ⟨rfl, fun m same => ?_⟩
      cases same
      exact Varint.exists_encode_iff.1 ⟨bytes, encoded⟩
    | _ => exact absurd written (Emission.fail_ne_write _)
  | text text =>
    cases representation with
    | text => exact ⟨rfl, nofun⟩
    | _ => exact absurd written (Emission.fail_ne_write _)
  | bytes content =>
    cases representation with
    | bytes => exact ⟨rfl, nofun⟩
    | _ => exact absurd written (Emission.fail_ne_write _)
  | bool flag =>
    cases representation with
    | bool => exact ⟨rfl, nofun⟩
    | _ => exact absurd written (Emission.fail_ne_write _)

theorem encodePayload_parts (written : encodePayload codec room definition value = .write bytes) :
    definition.Admits value ∧ (∀ n, value = .builtin (.varint n) → n < 2 ^ 2040) ∧
      ∀ typed ∈ definition.typedParts value,
        ∃ piece, encodeAt codec room typed.1 typed.2 = .write piece := by
  simp only [encodePayload] at written
  split at written
  · rename_i shape
    refine ⟨by simp [Definition.Admits, shape], ?_, by simp [Definition.typedParts, Value.parts]⟩
    intro n same
    cases same
  · rename_i representation primitive shape
    obtain ⟨same, fits⟩ := encodePrimitive_fits written
    refine ⟨by simpa [Definition.Admits, shape] using same, ?_, by
      simp [Definition.typedParts, Value.parts]⟩
    intro n same
    exact fits n (Value.builtin.inj same)
  · rename_i fields values shape
    split at written
    · rename_i counted
      refine ⟨by simpa [Definition.Admits, shape] using counted, ?_, ?_⟩
      · intro n same
        cases same
      · rw [Definition.typedParts_record shape]
        exact encodeFields_parts written
    · exact absurd written (Emission.fail_ne_write _)
  · rename_i element items shape
    obtain ⟨_, _, _, written, _⟩ := Emission.andThen_eq_write_iff.1 written
    rw [encodeItems_eq_encodeFields] at written
    refine ⟨by simp [Definition.Admits, shape], ?_, ?_⟩
    · intro n same
      cases same
    · rw [Definition.typedParts_list shape]
      exact encodeFields_parts written
  · exact absurd written (Emission.fail_ne_write _)

theorem limits_of_encodeAt (value : Value) {room : Nat} {type : String} {bytes : Bytes}
    (written : encodeAt codec room type value = .write bytes) :
    codec.types.HasType type value ∧ (∀ n ∈ value.numbers, n < 2 ^ 2040) ∧ value.depth < room := by
  induction value using Value.induction generalizing room type bytes with
  | step value payloads parts =>
    obtain ⟨room, definition, rfl, found⟩ := encodeAt_bound written
    by_cases enum : definition.kind = .enum
    · obtain ⟨case, payload, rfl, reference, written⟩ := encodeAt_enum found enum written
      obtain ⟨typed, numbers, shallow⟩ := payloads case payload rfl written
      refine ⟨.intro found (Definition.admits_case enum reference) ?_ ?_, numbers, shallow⟩
      · rintro _ _ ⟨⟩
        exact typed
      · simp [Definition.typedParts, Value.parts]
    · rw [encodeAt_concrete found enum] at written
      obtain ⟨_, _, _, written, _⟩ := Emission.andThen_eq_write_iff.1 written
      obtain ⟨admits, fits, pieces⟩ := encodePayload_parts written
      have concrete : value.kind ≠ .enum := admits.kind ▸ enum
      have each : ∀ typed ∈ definition.typedParts value, codec.types.HasType typed.1 typed.2 ∧
          (∀ n ∈ typed.2.numbers, n < 2 ^ 2040) ∧ typed.2.depth < room := by
        intro typed member
        obtain ⟨piece, written⟩ := pieces typed member
        exact parts typed.2 (Definition.snd_mem_parts member) written
      refine ⟨.intro found admits ?_ fun typed member => (each typed member).1, ?_, ?_⟩
      · rintro case payload rfl
        exact absurd rfl concrete
      · intro n held
        rcases Value.mem_numbers_node concrete held with leaf | ⟨part, member, held⟩
        · exact fits n leaf
        · obtain ⟨type, member⟩ := Definition.exists_mem_typedParts admits member
          exact (each _ member).2.1 n held
      · rw [Nat.lt_succ_iff, Value.depth_le_iff concrete]
        intro part member
        obtain ⟨type, member⟩ := Definition.exists_mem_typedParts admits member
        exact (each _ member).2.2

theorem EncodeFailure.limits (own : codec.identifiers = .assign codec.types)
    (failure : EncodeFailure codec room type value error) (typed : codec.types.HasType type value) :
    (∃ name, error = .conversion name (.tooDeep codec.maxDepth)) ∧ room ≤ value.depth ∨
      (∃ length, error = .countTooBig length) ∧ ∃ n ∈ value.numbers, 2 ^ 2040 ≤ n := by
  induction failure with
  | tooDeep type value => exact .inl ⟨⟨type, rfl⟩, Nat.zero_le _⟩
  | unbound unbound =>
    obtain ⟨found, -⟩ := typed
    cases unbound.symm.trans found
  | @unnumbered _ type _ definition found unnumbered =>
    rw [own, IdentifierTable.identifier?_eq_none_iff, IdentifierTable.mem_names_assign] at unnumbered
    exact absurd (Namespace.contains_iff.2 ⟨definition, found⟩) unnumbered
  | misfit cause found misfit =>
    obtain ⟨bound, admits, -⟩ := typed
    cases found.symm.trans bound
    exact absurd admits misfit
  | @tooLong _ n _ number long =>
    exact .inr ⟨⟨number.length, rfl⟩, n, List.mem_singleton_self n,
      Varint.le_of_encode_eq_error long⟩
  | case found enum reference _ ih =>
    obtain ⟨-, -, payloads, -⟩ := typed
    exact ih (payloads _ _ rfl)
  | part found member _ ih =>
    obtain ⟨bound, -, -, parts⟩ := typed
    cases found.symm.trans bound
    refine (ih (parts _ member)).imp ?_ ?_
    · rintro ⟨deep, reached⟩
      exact ⟨deep, Nat.lt_of_le_of_lt reached
        (Value.depth_part_lt (Definition.snd_mem_parts member))⟩
    · rintro ⟨long, n, held, large⟩
      exact ⟨long, n, Value.mem_numbers_of_part (Definition.snd_mem_parts member) held, large⟩

theorem limits_of_encode (encoded : codec.encode type value = .ok bytes) :
    codec.types.HasType type value ∧ (∀ n ∈ value.numbers, n < 2 ^ 2040) ∧
      value.depth ≤ codec.maxDepth := by
  obtain ⟨typed, numbers, shallow⟩ := limits_of_encodeAt value (Emission.result_eq_ok_iff.1 encoded)
  exact ⟨typed, numbers, Nat.le_of_lt_succ shallow⟩

theorem limits_of_error (own : codec.identifiers = .assign codec.types)
    (typed : codec.types.HasType type value) (failed : codec.encode type value = .error error) :
    (∃ name, error = .conversion name (.tooDeep codec.maxDepth)) ∧ codec.maxDepth < value.depth ∨
      (∃ length, error = .countTooBig length) ∧ ∃ n ∈ value.numbers, 2 ^ 2040 ≤ n :=
  (encodeFailure_of_encodeAt (Emission.result_eq_error_iff.1 failed)).limits own typed

theorem exists_encode_iff (own : codec.identifiers = .assign codec.types) :
    (∃ bytes, codec.encode type value = .ok bytes) ↔
      codec.types.HasType type value ∧ (∀ n ∈ value.numbers, n < 2 ^ 2040) ∧
        value.depth ≤ codec.maxDepth := by
  constructor
  · rintro ⟨bytes, encoded⟩
    exact limits_of_encode encoded
  · rintro ⟨typed, numbers, shallow⟩
    cases encoded : codec.encode type value with
    | ok bytes => exact ⟨bytes, rfl⟩
    | error error =>
      rcases limits_of_error own typed encoded with ⟨-, deep⟩ | ⟨-, n, held, large⟩
      · exact absurd shallow (Nat.not_le_of_lt deep)
      · exact absurd (numbers n held) (Nat.not_lt_of_le large)

/-! ## Both -/

/-- What can be written to the wire is what can be written as JSON and stays within both limits. So
what is read from the wire can be shown as JSON, and only a limit keeps from the wire what is read
from JSON. -/
theorem encode_iff_json (codec : Codec) (own : codec.identifiers = .assign codec.types)
    (type : String) :
    (∀ value, (∃ bytes, codec.encode type value = .ok bytes) ↔
      (∃ json, codec.types.jsonOfValue type value = .ok json) ∧
        (∀ n ∈ value.numbers, n < 2 ^ 2040) ∧ value.depth ≤ codec.maxDepth) ∧
    (∀ bytes value, codec.decode type bytes = .ok value →
      ∃ json, codec.types.jsonOfValue type value = .ok json) ∧
    ∀ json value error, codec.types.valueOfJson type json = .ok value →
      codec.encode type value = .error error →
      (∃ name, error = .conversion name (.tooDeep codec.maxDepth)) ∧ codec.maxDepth < value.depth ∨
        (∃ length, error = .countTooBig length) ∧ ∃ n ∈ value.numbers, 2 ^ 2040 ≤ n := by
  refine ⟨fun value => ?_, fun bytes value decoded => ?_, fun json value error read failed => ?_⟩
  · rw [Namespace.exists_jsonOfValue_iff]
    exact exists_encode_iff own
  · have encoded := encode_of_decode decoded
    exact (Namespace.exists_jsonOfValue_iff value).2 (limits_of_encode encoded).1
  · have written := Namespace.jsonOfValue_of_valueOfJson json read
    have typed := (Namespace.exists_jsonOfValue_iff value).1 ⟨_, written⟩
    exact limits_of_error own typed failed

def flatParcels : Codec := ⟨.parcels, .assign .parcels, 1⟩

/-- A parcel in a parcel can be read from JSON, and only its depth keeps it from the wire. -/
theorem encode_iff_json_parcels :
    let inner : Value := .record [.builtin (.text "Ink"), .builtin (.varint 7),
      .builtin (.bytes []), .list []]
    let outer : Value := .record [.builtin (.text "Ink"), .builtin (.varint 7),
      .builtin (.bytes []), .list [inner]]
    let json : Json := .array [.string "Ink", .string "7", .string "",
      .array [.array [.string "Ink", .string "7", .string "", .array []]]]
    (∃ bytes, flatParcels.encode "Parcel" inner = .ok bytes) ∧
      flatParcels.types.valueOfJson "Parcel" json = .ok outer ∧
      (¬ ∃ bytes, flatParcels.encode "Parcel" outer = .ok bytes) ∧
      ∀ error, flatParcels.encode "Parcel" outer = .error error →
        ∃ name, error = .conversion name (.tooDeep 1) := by
  intro inner outer json
  obtain ⟨same, -, failing⟩ := encode_iff_json flatParcels rfl "Parcel"
  have fits : ∀ n ∈ outer.numbers, n < 2 ^ 2040 := by
    intro n held
    have leaf : n ∈ [7, 7] := held
    obtain rfl : n = 7 := by simpa using leaf
    exact Varint.exists_encode_iff.1 ⟨[1, 7], by cbv⟩
  have deep : ¬ outer.depth ≤ flatParcels.maxDepth := by decide
  refine ⟨(same inner).2 ⟨⟨_, rfl⟩, fun n held => ?_, by decide⟩, rfl, fun written => ?_,
    fun error failed => ?_⟩
  · exact fits n (List.mem_cons_of_mem 7 held)
  · exact deep ((same outer).1 written).2.2
  · rcases failing json outer error rfl failed with ⟨tooDeep, -⟩ | ⟨-, n, held, large⟩
    · exact tooDeep
    · exact absurd (fits n held) (Nat.not_lt_of_le large)

end Codec

end SchemaWire
