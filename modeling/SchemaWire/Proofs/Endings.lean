import SchemaWire.Proofs.Acceptance
import SchemaWire.Proofs.HexText
import SchemaWire.Proofs.KnownTypes
import SchemaWire.Proofs.Printing
import SchemaWire.Proofs.SingleMessage

/-! How a run ends, and what is left to go wrong under a compiled schema.

A run puts something on standard output, or it fails and puts nothing there. Where every reference of
a schema is bound, only the type that was asked for can be unknown; whatever else fails is bad data.
-/

set_option autoImplicit false

namespace SchemaWire.CommandLine

open Message

/-- The end of a run: what stands on standard output, or the exit of a failure. -/
abbrev Ending := Except Exit Bytes

/-- How an outcome looks to the caller. A failed run has nothing on standard output. -/
inductive Outcome.Ends (outcome : Outcome) : Ending → Prop where
  | shown : outcome.exit = .success → Ends outcome (.ok outcome.stdout)
  | failed {exit : Exit} :
      outcome.exit = exit → exit ≠ .success → outcome.stdout = [] → Ends outcome (.error exit)

theorem Outcome.Ends.unique {outcome : Outcome} {first second : Ending}
    (ends : outcome.Ends first) (again : outcome.Ends second) : first = second := by
  cases ends with
  | shown success =>
    cases again with
    | shown _ => rfl
    | failed exit bad _ => exact absurd (exit.symm.trans success) bad
  | failed exit bad _ =>
    cases again with
    | shown success => exact absurd (exit.symm.trans success) bad
    | failed other _ _ => rw [← exit, ← other]

theorem Outcome.ends_ok_iff {outcome : Outcome} {stdout : Bytes} :
    outcome.Ends (.ok stdout) ↔ outcome.exit = .success ∧ outcome.stdout = stdout := by
  constructor
  · rintro ⟨success⟩
    exact ⟨success, rfl⟩
  · rintro ⟨success, rfl⟩
    exact .shown success

variable {environment : Environment} {command : Command} {asked : Option Format} {failure : Failure}
  {exit : Exit} {stdout : Bytes}

theorem ends_of_failure
    (failed : command.run environment (environment.formatFor asked) = .error failure)
    (same : failure.exit = exit) (bad : exit ≠ .success) :
    (Invocation.run environment ⟨asked, command⟩).Ends (.error exit) := by
  rw [Invocation.run, failed]
  exact .failed same bad rfl

theorem ends_of_success
    (done : command.run environment (environment.formatFor asked) =
      .ok ⟨.success, stdout, ""⟩) :
    (Invocation.run environment ⟨asked, command⟩).Ends (.ok stdout) := by
  rw [Invocation.run, done]
  exact .shown rfl

theorem exit_ofIo_ne_success (context : String) (error : IoError) :
    (Failure.ofIo context error).exit ≠ .success := by
  obtain ⟨kind, text⟩ := error
  cases kind <;> exact nofun

/-! ## Schemas -/

section

variable {schema : Schema} {type context : String} {value : Value} {json : Json} {bytes : Bytes}

theorem closed_of_schema (schema : Schema) : schema.types.Closed :=
  Namespace.validate_eq_ok_iff.1 schema.valid

theorem oneLine_of_contains {environment : Environment} {path : String}
    (loaded : environment.loadSchema path = .ok schema)
    (bound : schema.types.contains type = true) : OneLine type := by
  obtain ⟨definition, found⟩ := Namespace.contains_iff.1 bound
  obtain ⟨member, rfl⟩ := Namespace.find?_eq_some_iff.1 found
  exact oneLine_of_loadSchema loaded member

theorem find?_of_unbound (unbound : schema.types.contains type = false) :
    schema.types.find? type = none := by
  simpa [Namespace.contains] using unbound

theorem exit_of_conversion {error : CodecError} (conversion : error.IsConversion) :
    (Failure.ofCodec context error).exit = .dataInvalid := by
  obtain ⟨type, cause, rfl⟩ := conversion
  rfl

theorem exit_of_refusal {error : JsonError} (refusal : error.IsRefusal) :
    (Failure.ofJson context error).exit = .dataInvalid := by
  obtain ⟨type, cause, rfl⟩ := refusal
  rfl

theorem exit_of_decode {error : CodecError} (bound : schema.types.contains type = true)
    (refused : schema.codec.decode type bytes = .error error) :
    (Failure.ofCodec context error).exit = .dataInvalid := by
  apply exit_of_conversion
  exact Codec.conversion_exactly
    (Codec.conversion_takeAt (closed_of_schema schema) rfl _ bound bytes) error refused

theorem exit_of_encode {error : CodecError} (bound : schema.types.contains type = true)
    (refused : schema.codec.encode type value = .error error) :
    (Failure.ofCodec context error).exit = .dataInvalid := by
  have failure := Codec.encodeFailure_of_encodeAt (Emission.result_eq_error_iff.1 refused)
  rcases failure.cause (closed_of_schema schema) rfl bound with conversion | ⟨⟨length, rfl⟩, -⟩
  · exact exit_of_conversion conversion
  · rfl

theorem decode_unbound (unbound : schema.types.contains type = false) (bytes : Bytes) :
    schema.codec.decode type bytes = .error (.unknownType type) := by
  have missing : schema.codec.types.find? type = none := find?_of_unbound unbound
  rw [Codec.decode, Codec.take_unbound missing]
  rfl

theorem valueOfJson_unbound (unbound : schema.types.contains type = false) (json : Json) :
    schema.types.valueOfJson type json = .error (.unknownType type) := by
  rw [Namespace.valueOfJson.eq_def, find?_of_unbound unbound]

theorem contains_of_decode (decoded : schema.codec.decode type bytes = .ok value) :
    schema.types.contains type = true := by
  cases bound : schema.types.contains type with
  | true => rfl
  | false => cases (decode_unbound bound bytes).symm.trans decoded

theorem exists_jsonOfValue_of_decode (decoded : schema.codec.decode type bytes = .ok value) :
    ∃ json, schema.types.jsonOfValue type value = .ok json :=
  (Namespace.exists_jsonOfValue_iff value).2
    (Codec.limits_of_encode (Codec.encode_of_decode decoded)).1

theorem exists_identifier (bound : schema.types.contains type = true) :
    ∃ identifier, schema.codec.identifier type = .ok identifier := by
  cases numbered : schema.codec.identifiers.identifier? type with
  | some identifier => exact ⟨identifier, by rw [Codec.identifier, numbered]⟩
  | none =>
    have missing := IdentifierTable.identifier?_eq_none_iff.1 numbered
    exact absurd (IdentifierTable.mem_names_assign.2 bound) missing

end

end SchemaWire.CommandLine
