import SchemaWire.Proofs.Endings
import SchemaWire.Proofs.JsonNesting

/-! How the command that encodes ends.

Once the text is JSON that can be read and fits a bound type, only a number in the value or the
length of what is framed can keep it from being encoded. It is never too deep.
-/

set_option autoImplicit false

namespace SchemaWire.CommandLine

open Message

def wire (framed : Bool) (payload : Bytes) : Bytes :=
  if framed then Message.encode payload else payload

inductive EncodeEnds (environment : Environment) (schema : Schema) (format : Format)
    (type text : String) (framed : Bool) : Ending → Prop where
  | notJson :
      (∀ json, ¬ Json.Spells text json) →
      EncodeEnds environment schema format type text framed (.error .usage)
  /-- The text is JSON, but more containers are open in it than the reader takes. -/
  | tooNested {json : Json} :
      Json.Spells text json → Json.maxOpen < Json.nesting text →
      EncodeEnds environment schema format type text framed (.error .usage)
  | unbound :
      schema.types.contains type = false →
      EncodeEnds environment schema format type text framed (.error .usage)
  | misfit {json : Json} {error : JsonError} :
      schema.types.contains type = true → Json.parse? text = some json →
      schema.types.valueOfJson type json = .error error →
      EncodeEnds environment schema format type text framed (.error .dataInvalid)
  | tooLarge {json : Json} {value : Value} {n : Nat} :
      Json.parse? text = some json → schema.types.valueOfJson type json = .ok value →
      n ∈ value.numbers → 2 ^ 2040 ≤ n →
      EncodeEnds environment schema format type text framed (.error .dataInvalid)
  | tooLong {json : Json} {value : Value} {payload : Bytes} :
      Json.parse? text = some json → schema.types.valueOfJson type json = .ok value →
      schema.codec.encode type value = .ok payload →
      framed = true → defaultLimit.toNat < payload.length →
      EncodeEnds environment schema format type text framed (.error .dataInvalid)
  | shown {json : Json} {value : Value} {payload stdout : Bytes} {identifier : Identifier} :
      Json.parse? text = some json → schema.types.valueOfJson type json = .ok value →
      schema.codec.encode type value = .ok payload →
      (framed = true → payload.length ≤ defaultLimit.toNat) →
      schema.codec.identifier type = .ok identifier →
      PrintsBytes environment type identifier framed (wire framed payload) stdout format →
      EncodeEnds environment schema format type text framed (.ok stdout)

variable {environment : Environment} {schema : Schema} {path type text : String}
  {origin : ValueOrigin} {framed : Bool} {payload : Bytes} {format : Format}
  {asked : Option Format} {ending : Ending} {json : Json} {value : Value}

/-! ## Every case ends a run in its way -/

theorem frame_of_small (small : payload.length ≤ defaultLimit.toNat) :
    frame payload = .ok (Message.encode payload) := by
  have written : Sink.willing.writeMessage payload =
      Sink.willing.writeFlushed (Message.append payload []) := if_pos small
  rw [frame, written]
  rfl

theorem frame_of_large (large : defaultLimit.toNat < payload.length) :
    ∃ failure, frame payload = .error failure ∧ failure.exit = .dataInvalid := by
  have refused : Sink.willing.writeMessage payload =
      (.error (.payloadTooLarge payload.length defaultLimit), Sink.willing) :=
    if_neg (Nat.not_le_of_lt large)
  refine ⟨.ofFrame "framing failed" (.payloadTooLarge payload.length defaultLimit), ?_, rfl⟩
  rw [frame, refused]
  rfl

theorem runEncode_of_json (loaded : environment.loadSchema path = .ok schema)
    (given : environment.valueText origin = .ok text) (parsed : Json.parse? text = some json) :
    Command.runEncode environment format path type origin framed = do
      let value ← (schema.types.valueOfJson type json).mapError (.ofJson "invalid value")
      let payload ← (schema.codec.encode type value).mapError (.ofCodec "encode failed")
      let identifier ← (schema.codec.identifier type).mapError (.ofCodec "encode failed")
      let bytes ← if framed then frame payload else pure payload
      return Command.showEncoded environment format type identifier framed bytes := by
  simp only [Command.runEncode, Environment.readValue, loaded, given, parsed, Outcome.ok_bind]
  rfl

theorem contains_of_valueOfJson (read : schema.types.valueOfJson type json = .ok value) :
    schema.types.contains type = true := by
  obtain ⟨definition, found, -⟩ := Namespace.valueOfJson_eq_ok_iff.1 read
  exact Namespace.contains_iff.2 ⟨definition, found⟩

theorem ends_of_unencodable (loaded : environment.loadSchema path = .ok schema)
    (given : environment.valueText origin = .ok text) (parsed : Json.parse? text = some json)
    (read : schema.types.valueOfJson type json = .ok value)
    (none : ∀ payload, schema.codec.encode type value ≠ .ok payload) :
    (Invocation.run environment ⟨asked, .encode path type origin framed⟩).Ends
      (.error .dataInvalid) := by
  cases refused : schema.codec.encode type value with
  | ok payload => exact absurd refused (none payload)
  | error error =>
    have failed : Command.runEncode environment (environment.formatFor asked) path type origin
        framed = .error (.ofCodec "encode failed" error) := by
      rw [runEncode_of_json loaded given parsed]
      simp only [read, refused, Outcome.mapError_ok, Outcome.mapError_error, Outcome.ok_bind,
        Outcome.error_bind]
    exact ends_of_failure failed (exit_of_encode (contains_of_valueOfJson read) refused) nofun

theorem ends_of_unread (loaded : environment.loadSchema path = .ok schema)
    (given : environment.valueText origin = .ok text) (none : Json.parse? text = none) :
    (Invocation.run environment ⟨asked, .encode path type origin framed⟩).Ends (.error .usage) := by
  have failed : Command.runEncode environment (environment.formatFor asked) path type origin
      framed = .error ⟨.usage, "value is not valid JSON: unexpected text"⟩ := by
    simp only [Command.runEncode, Environment.readValue, loaded, given, none, Outcome.ok_bind]
    rfl
  exact ends_of_failure failed rfl nofun

theorem ends_encode (loaded : environment.loadSchema path = .ok schema)
    (given : environment.valueText origin = .ok text)
    (ends : EncodeEnds environment schema (environment.formatFor asked) type text framed ending) :
    (Invocation.run environment ⟨asked, .encode path type origin framed⟩).Ends ending := by
  cases ends with
  | notJson none =>
    refine ends_of_unread loaded given (Option.eq_none_iff_forall_ne_some.2 fun json parsed => ?_)
    exact none json (Json.parse?_iff_spells.1 parsed).1
  | tooNested _ deep =>
    refine ends_of_unread loaded given (Option.eq_none_iff_forall_ne_some.2 fun json parsed => ?_)
    exact Nat.not_le_of_lt deep (Json.parse?_iff_spells.1 parsed).2
  | unbound unbound =>
    cases parsed : Json.parse? text with
    | none => exact ends_of_unread loaded given parsed
    | some json =>
      have failed : Command.runEncode environment (environment.formatFor asked) path type origin
          framed = .error (.ofJson "invalid value" (.unknownType type)) := by
        rw [runEncode_of_json loaded given parsed, valueOfJson_unbound unbound]
        rfl
      exact ends_of_failure failed rfl nofun
  | @misfit json error bound parsed refused =>
    have failed : Command.runEncode environment (environment.formatFor asked) path type origin
        framed = .error (.ofJson "invalid value" error) := by
      rw [runEncode_of_json loaded given parsed, refused]
      rfl
    have refusal := Namespace.refusal_valueOfJson (closed_of_schema schema) json bound error refused
    exact ends_of_failure failed (exit_of_refusal refusal) nofun
  | @tooLarge json value n parsed read held large =>
    refine ends_of_unencodable loaded given parsed read fun payload encoded => ?_
    exact Nat.not_le_of_lt ((Codec.limits_of_encode encoded).2.1 n held) large
  | tooLong parsed read encoded framed long =>
    subst framed
    obtain ⟨identifier, numbered⟩ := exists_identifier (contains_of_valueOfJson read)
    obtain ⟨failure, refused, exit⟩ := frame_of_large long
    have failed : Command.runEncode environment (environment.formatFor asked) path type origin
        true = .error failure := by
      rw [runEncode_of_json loaded given parsed]
      simp only [read, encoded, numbered, if_true, refused, Outcome.mapError_ok, Outcome.ok_bind,
        Outcome.error_bind]
    exact ends_of_failure failed exit nofun
  | @shown json value payload stdout identifier parsed read encoded small numbered prints =>
    have plain := oneLine_of_contains loaded (contains_of_valueOfJson read)
    have shows := (printsBytes_iff plain).1 prints
    apply ends_of_success
    show Command.runEncode environment (environment.formatFor asked) path type origin framed = _
    rw [runEncode_of_json loaded given parsed, ← shows]
    simp only [read, encoded, numbered, Outcome.mapError_ok, Outcome.ok_bind]
    cases framed with
    | false => rfl
    | true =>
      simp only [if_true, frame_of_small (small rfl), Outcome.ok_bind]
      rfl

/-! ## Some case is always there -/

theorem hasType_of_valueOfJson (read : schema.types.valueOfJson type json = .ok value) :
    schema.types.HasType type value :=
  (Namespace.exists_jsonOfValue_iff value).1 ⟨_, Namespace.jsonOfValue_of_valueOfJson json read⟩

theorem exists_encodeEnds_of_value (plain : OneLine type) (parsed : Json.parse? text = some json)
    (read : schema.types.valueOfJson type json = .ok value) :
    ∃ ending, EncodeEnds environment schema format type text framed ending := by
  by_cases fits : ∀ n ∈ value.numbers, n < 2 ^ 2040
  · have typed : schema.codec.types.HasType type value := hasType_of_valueOfJson read
    have shallow : value.depth ≤ Codec.defaultMaxDepth := Namespace.depth_le_of_parse parsed read
    obtain ⟨payload, encoded⟩ := (Codec.exists_encode_iff rfl).2 ⟨typed, fits, shallow⟩
    obtain ⟨identifier, numbered⟩ := exists_identifier (contains_of_valueOfJson read)
    by_cases small : framed = true → payload.length ≤ defaultLimit.toNat
    · obtain ⟨stdout, prints⟩ := exists_printsBytes plain
      exact ⟨_, .shown parsed read encoded small numbered prints⟩
    · rw [Classical.not_imp, Nat.not_le] at small
      exact ⟨_, .tooLong parsed read encoded small.1 small.2⟩
  · simp only [not_forall, Nat.not_lt] at fits
    obtain ⟨n, held, large⟩ := fits
    exact ⟨_, .tooLarge parsed read held large⟩

theorem exists_encodeEnds (loaded : environment.loadSchema path = .ok schema) :
    ∃ ending, EncodeEnds environment schema format type text framed ending := by
  cases parsed : Json.parse? text with
  | none =>
    by_cases spelled : ∃ json, Json.Spells text json
    · obtain ⟨json, spells⟩ := spelled
      refine ⟨_, .tooNested spells (Nat.lt_of_not_le fun room => ?_)⟩
      cases parsed.symm.trans (Json.parse?_iff_spells.2 ⟨spells, room⟩)
    · exact ⟨_, .notJson (not_exists.1 spelled)⟩
  | some json =>
    cases bound : schema.types.contains type with
    | false => exact ⟨_, .unbound bound⟩
    | true =>
      cases read : schema.types.valueOfJson type json with
      | error error => exact ⟨_, .misfit bound parsed read⟩
      | ok value => exact exists_encodeEnds_of_value (oneLine_of_contains loaded bound) parsed read

theorem ends_encode_iff (loaded : environment.loadSchema path = .ok schema)
    (given : environment.valueText origin = .ok text) :
    (Invocation.run environment ⟨asked, .encode path type origin framed⟩).Ends ending ↔
      EncodeEnds environment schema (environment.formatFor asked) type text framed ending := by
  constructor
  · intro ends
    obtain ⟨other, there⟩ := exists_encodeEnds loaded
    rwa [ends.unique (ends_encode loaded given there)]
  · exact ends_encode loaded given

end SchemaWire.CommandLine
