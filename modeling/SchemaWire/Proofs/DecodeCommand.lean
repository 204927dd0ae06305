import SchemaWire.Proofs.Endings

/-! How the command that decodes ends.

The input is hexadecimal or raw, and the payload stands in it bare or as one message. A payload that
is there is decoded if the type is bound, and what was decoded is always shown.
-/

set_option autoImplicit false

namespace SchemaWire.CommandLine

open Message

/-- The bytes to decode: those of hexadecimal digits in either case and with blanks anywhere, or
else those on standard input. -/
inductive Environment.Gives (environment : Environment) : Option String → Bytes → Prop where
  | digits {hex : String} {input : Bytes} :
      Hex.plain hex = Hex.encode input → Gives environment (some hex) input
  | raw {input : Bytes} : environment.stdin = .ok input → Gives environment none input

inductive Carries : Bool → Bytes → Bytes → Prop where
  | bare (payload : Bytes) : Carries false payload payload
  | framed {input payload : Bytes} :
      Framed payload input → payload.length ≤ defaultLimit.toNat → Carries true input payload

inductive DecodeEnds (environment : Environment) (schema : Schema) (format : Format) (type : String)
    (hex : Option String) (framed : Bool) : Ending → Prop where
  /-- The argument is no hexadecimal form of any bytes. -/
  | malformedHex :
      hex ≠ none → (∀ input, ¬ environment.Gives hex input) →
      DecodeEnds environment schema format type hex framed (.error .usage)
  | malformedFrame {input : Bytes} :
      environment.Gives hex input → framed = true → Malformed defaultLimit input →
      DecodeEnds environment schema format type hex framed (.error .dataInvalid)
  | unbound {input payload : Bytes} :
      environment.Gives hex input → Carries framed input payload →
      schema.types.contains type = false →
      DecodeEnds environment schema format type hex framed (.error .usage)
  | rejected {input payload : Bytes} {error : CodecError} :
      environment.Gives hex input → Carries framed input payload →
      schema.types.contains type = true → schema.codec.decode type payload = .error error →
      DecodeEnds environment schema format type hex framed (.error .dataInvalid)
  | shown {input payload stdout : Bytes} {value : Value} {json : Json} :
      environment.Gives hex input → Carries framed input payload →
      schema.codec.decode type payload = .ok value →
      schema.types.jsonOfValue type value = .ok json →
      PrintsValue environment type json stdout format →
      DecodeEnds environment schema format type hex framed (.ok stdout)

variable {environment : Environment} {schema : Schema} {path type : String} {hex : Option String}
  {framed : Bool} {input payload : Bytes} {format : Format} {asked : Option Format}
  {ending : Ending}

/-! ## Every case ends a run in its way -/

theorem decodeInput_eq_ok_iff :
    environment.decodeInput hex = .ok input ↔ environment.Gives hex input := by
  cases hex with
  | none =>
    rw [Environment.decodeInput, Outcome.mapError_eq_ok_iff]
    exact ⟨.raw, fun | .raw given => given⟩
  | some hex =>
    rw [Environment.decodeInput, Outcome.mapError_eq_ok_iff, Hex.decode_eq_ok_iff]
    exact ⟨.digits, fun | .digits same => same⟩

theorem runDecode_of_given (loaded : environment.loadSchema path = .ok schema)
    (given : environment.Gives hex input) :
    Command.runDecode environment format path type hex framed = do
      let payload ← if framed then unframe input else pure input
      let value ← (schema.codec.decode type payload).mapError (.ofCodec "decode failed")
      let json ← (schema.types.jsonOfValue type value).mapError (.ofJson "decode failed")
      return Command.showDecoded environment format type json := by
  simp only [Command.runDecode, loaded, decodeInput_eq_ok_iff.2 given, Outcome.ok_bind]

theorem runDecode_of_carries (loaded : environment.loadSchema path = .ok schema)
    (given : environment.Gives hex input) (carries : Carries framed input payload) :
    Command.runDecode environment format path type hex framed = do
      let value ← (schema.codec.decode type payload).mapError (.ofCodec "decode failed")
      let json ← (schema.types.jsonOfValue type value).mapError (.ofJson "decode failed")
      return Command.showDecoded environment format type json := by
  rw [runDecode_of_given loaded given]
  cases carries with
  | bare => rfl
  | framed message small => simp only [if_true, unframe_framed message small, Outcome.ok_bind]

theorem ends_decode (loaded : environment.loadSchema path = .ok schema)
    (ends : DecodeEnds environment schema (environment.formatFor asked) type hex framed ending) :
    (Invocation.run environment ⟨asked, .decode path type hex framed⟩).Ends ending := by
  cases ends with
  | malformedHex some none =>
    obtain ⟨digits, rfl⟩ := Option.ne_none_iff_exists'.1 some
    cases refused : Hex.decode digits with
    | ok input => exact absurd (.digits (Hex.decode_eq_ok_iff.1 refused)) (none input)
    | error cause =>
      have failed : Command.runDecode environment (environment.formatFor asked) path type
          (.some digits) framed =
            .error (.inContext .usage "invalid hex input" cause.message) := by
        simp only [Command.runDecode, loaded, Environment.decodeInput, refused,
          Outcome.mapError_error, Outcome.ok_bind, Outcome.error_bind]
      exact ends_of_failure failed rfl nofun
  | malformedFrame given framed malformed =>
    subst framed
    obtain ⟨failure, refused, exit⟩ := unframe_malformed malformed
    have failed : Command.runDecode environment (environment.formatFor asked) path type hex true =
        .error failure := by
      rw [runDecode_of_given loaded given]
      simp only [if_true, refused, Outcome.error_bind]
    exact ends_of_failure failed exit nofun
  | unbound given carries unbound =>
    have failed : Command.runDecode environment (environment.formatFor asked) path type hex framed =
        .error (.ofCodec "decode failed" (.unknownType type)) := by
      rw [runDecode_of_carries loaded given carries, decode_unbound unbound]
      rfl
    exact ends_of_failure failed rfl nofun
  | @rejected input payload error given carries bound refused =>
    have failed : Command.runDecode environment (environment.formatFor asked) path type hex framed =
        .error (.ofCodec "decode failed" error) := by
      rw [runDecode_of_carries loaded given carries, refused]
      rfl
    exact ends_of_failure failed (exit_of_decode bound refused) nofun
  | @shown input payload stdout value json given carries decoded written prints =>
    have plain := oneLine_of_contains loaded (contains_of_decode decoded)
    have shows := (printsValue_iff plain (Namespace.exact_jsonOfValue written)).1 prints
    apply ends_of_success
    show Command.runDecode environment (environment.formatFor asked) path type hex framed = _
    rw [runDecode_of_carries loaded given carries, ← shows]
    simp only [decoded, written, Outcome.mapError_ok, Outcome.ok_bind]
    rfl

/-! ## Some case is always there -/

end SchemaWire.CommandLine
