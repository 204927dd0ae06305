import SchemaWire.Proofs.CanonicalText
import SchemaWire.Proofs.DecodeCommand
import SchemaWire.Proofs.EncodeCommand
import SchemaWire.Proofs.RoundTrip

/-! What one run of the program encodes, another one decodes.

Whichever way the printed bytes are carried over, the second run finds the payload in them. It shows
the value of the first run in canonical form.
-/

set_option autoImplicit false

namespace SchemaWire.CommandLine

open Message

variable {environment : Environment} {schema : Schema} {path type : String} {origin : ValueOrigin}
  {framed : Bool} {payload : Bytes} {asked : Option Format} {value : Value}

theorem carries_wire (small : framed = true → payload.length ≤ defaultLimit.toNat) :
    Carries framed (wire framed payload) payload := by
  cases framed with
  | false => exact .bare payload
  | true =>
    have short : payload.length < UInt64.size := Nat.lt_of_le_of_lt (small rfl) (by decide)
    exact .framed (framed_encode short) (small rfl)

/-- The bytes that were printed fit the address space only if the payload does. -/
theorem length_le_length_wire : payload.length ≤ (wire framed payload).length := by
  cases framed with
  | false => exact Nat.le_refl _
  | true =>
    simp only [wire, if_true, encode_eq, List.length_cons, List.length_append]
    omega

theorem exit_of_valueText {failure : Failure}
    (refused : environment.valueText origin = .error failure) : failure.exit ≠ .success := by
  have ofIo {context : String} {read : Except IoError String}
      (refused : read.mapError (Failure.ofIo context) = .error failure) :
      failure.exit ≠ .success := by
    cases read with
    | ok text => cases refused
    | error cause =>
      cases refused
      exact exit_ofIo_ne_success context cause
  cases origin with
  | text json => cases refused
  | file path => exact ofIo refused
  | stdin => exact ofIo refused

theorem exists_valueText_of_success (loaded : environment.loadSchema path = .ok schema)
    (success : (Invocation.run environment ⟨asked, .encode path type origin framed⟩).exit =
      .success) : ∃ text, environment.valueText origin = .ok text := by
  cases given : environment.valueText origin with
  | ok text => exact ⟨text, rfl⟩
  | error failure =>
    have failed : Command.runEncode environment (environment.formatFor asked) path type origin
        framed = .error failure := by
      simp only [Command.runEncode, Environment.readValue, loaded, given, Outcome.ok_bind,
        Outcome.error_bind]
    have bad := exit_of_valueText given
    have ends : (Invocation.run environment ⟨asked, .encode path type origin framed⟩).Ends
        (.error failure.exit) := ends_of_failure failed rfl bad
    cases ends with
    | failed exit _ _ => exact absurd (exit.symm.trans success) bad

/-- What decodes from the payload of a run is the value of the run in canonical form. -/
theorem exists_json_of_encode (numbered : schema.identifiers.size + Identifier.first ≤ UInt64.size)
    (encoded : schema.codec.encode type value = .ok payload)
    (short : payload.length < UInt64.size) :
    ∃ json, schema.codec.decode type payload = .ok (schema.types.canonical type value) ∧
      schema.types.jsonOfValue type (schema.types.canonical type value) = .ok json ∧
      (schema.types.Unambiguous → schema.types.jsonOfValue type value = .ok json) := by
  have decoded : schema.codec.decode type payload = .ok (schema.types.canonical type value) :=
    Codec.decode_of_encode numbered encoded short
  obtain ⟨json, written⟩ := exists_jsonOfValue_of_decode decoded
  refine ⟨json, decoded, written, fun unambiguous => ?_⟩
  have emitted := Emission.result_eq_ok_iff.1 encoded
  have settled := Codec.settled_of_unambiguous unambiguous emitted
  have same : schema.types.canonical type value = value := (Codec.canonical_eq_iff emitted).2 settled
  rwa [same] at written

/-- When a run has encoded a value, its bytes stand on standard output as the format has them, and
they are decoded under the same schema wherever they are given, as raw bytes or as hexadecimal
digits. That run prints the JSON of the value in which case paths stand in the place of the chains of
cases that were encoded; without ambiguity they are the same. The table and the bytes are taken to fit
the address space. -/
theorem decode_undoes_encode (sender receiver : Environment) (path file : String) (schema : Schema)
    (type : String) (origin : ValueOrigin) (framed : Bool) (asked : Option Format)
    (sent : sender.loadSchema path = .ok schema) (received : receiver.loadSchema file = .ok schema)
    (numbered : schema.identifiers.size + Identifier.first ≤ UInt64.size)
    (success : (Invocation.run sender ⟨asked, .encode path type origin framed⟩).exit = .success) :
    ∃ text json value identifier payload,
      sender.valueText origin = .ok text ∧ Json.parse? text = some json ∧
      schema.types.valueOfJson type json = .ok value ∧
      schema.codec.identifier type = .ok identifier ∧
      schema.codec.encode type value = .ok payload ∧
      PrintsBytes sender type identifier framed (wire framed payload)
        (Invocation.run sender ⟨asked, .encode path type origin framed⟩).stdout
        (sender.formatFor asked) ∧
      ((wire framed payload).length < UInt64.size →
        ∃ shown, schema.types.jsonOfValue type (schema.types.canonical type value) = .ok shown ∧
          (schema.types.Unambiguous → schema.types.jsonOfValue type value = .ok shown) ∧
          ∀ hex, receiver.Gives hex (wire framed payload) → ∀ format,
            let outcome := Invocation.run receiver ⟨format, .decode file type hex framed⟩
            outcome.exit = .success ∧
              PrintsValue receiver type shown outcome.stdout (receiver.formatFor format)) := by
  obtain ⟨text, given⟩ := exists_valueText_of_success sent success
  have ends := (ends_encode_iff sent given).1 (.shown success)
  generalize (Invocation.run sender ⟨asked, .encode path type origin framed⟩).stdout = stdout at ends
  cases ends with
  | @shown json value payload _ identifier parsed read encoded small listed prints =>
    refine ⟨text, json, value, identifier, payload, given, parsed, read, listed, encoded, prints,
      fun short => ?_⟩
    have payloadShort := Nat.lt_of_le_of_lt length_le_length_wire short
    obtain ⟨shown, decoded, written, settled⟩ := exists_json_of_encode numbered encoded payloadShort
    refine ⟨shown, written, settled, fun hex gives format => ?_⟩
    have plain := oneLine_of_contains received (contains_of_valueOfJson read)
    obtain ⟨printed, prints⟩ : ∃ printed,
        PrintsValue receiver type shown printed (receiver.formatFor format) :=
      exists_printsValue plain (Namespace.exact_jsonOfValue written)
    have ends : (Invocation.run receiver ⟨format, .decode file type hex framed⟩).Ends (.ok printed) :=
      ends_decode received (.shown gives (carries_wire small) decoded written prints)
    obtain ⟨exit, rfl⟩ := Outcome.ends_ok_iff.1 ends
    exact ⟨exit, prints⟩

/-- A list of one bit goes out in hexadecimal digits, and comes back from raw bytes and from digits
in pairs. -/
theorem decode_undoes_encode_bits :
    let text := "Bit: Builtin Bool\nBits: List Bit\n"
    let bytes : Bytes := [1, 9, 1, 7, 1, 1, 1, 3, 1, 6, 1]
    let environment : Environment :=
      { contentsAt := fun _ => .ok (Bytes.ofText text), stdin := .ok bytes }
    (Invocation.run environment
        ⟨some .pretty, .encode "bits" "Bits" (.text "[true]") true⟩).stdout =
        Bytes.ofText "0109010701010103010601\n" ∧
      ∀ hex, hex = none ∨ hex = some "01 09 01070101 0103010601" →
        let outcome := Invocation.run environment ⟨some .raw, .decode "bits" "Bits" hex true⟩
        outcome.exit = .success ∧ outcome.stdout = Bytes.ofText "[true]\n" := by
  intro text bytes environment
  let bit : Definition := ⟨"Bit", .builtin .bool⟩
  let bits : Definition := ⟨"Bits", .list (.named "Bit")⟩
  let schema : Schema := ⟨⟨[bits, bit], by decide⟩, by cbv⟩
  let json : Json := .array [.bool true]
  let value : Value := .list [.builtin (.bool true)]
  let payload : Bytes := [1, 7, 1, 1, 1, 3, 1, 6, 1]
  have read : SchemaText.parse text = .ok [bit, bits] :=
    SchemaText.parseLines_eq_ok_iff.2 ⟨by decide, by decide⟩
  have built : Namespace.build [bit, bits] = .ok schema.types :=
    Namespace.build_eq_ok_iff.2 ⟨by decide, rfl⟩
  have loaded : environment.loadSchema "bits" = .ok schema :=
    loadSchema_of_text rfl read built
  have parsed : Json.parse? "[true]" = some json := by cbv
  have fits : schema.types.valueOfJson "Bits" json = .ok value := rfl
  have encoded : schema.codec.encode "Bits" value = .ok payload := by cbv
  have listed : schema.codec.identifier "Bits" = .ok 7 := by cbv
  have wired : wire true payload = bytes := by decide
  have digits : Hex.encode bytes ++ "\n" = "0109010701010103010601\n" := by decide
  have prints : PrintsBytes environment "Bits" 7 true (wire true payload)
      (Bytes.ofText "0109010701010103010601\n") .pretty := by
    rw [wired, ← digits]
    exact (printsLines_singleton (Hex.oneLine_encode bytes)).2 rfl
  have ends : (Invocation.run environment
      ⟨some .pretty, .encode "bits" "Bits" (.text "[true]") true⟩).Ends
        (.ok (Bytes.ofText "0109010701010103010601\n")) :=
    ends_encode loaded rfl (.shown parsed fits encoded (fun _ => by decide) listed prints)
  obtain ⟨success, printed⟩ := Outcome.ends_ok_iff.1 ends
  -- The run is known, so what the theorem says there is of its bytes and of this value.
  obtain ⟨_, _, _, _, _, given, reparsed, refits, _, reencoded, _, decodes⟩ :=
    decode_undoes_encode environment environment "bits" "bits" schema "Bits" (.text "[true]") true
      (some .pretty) loaded loaded (by cbv) success
  obtain rfl := Except.ok.inj given
  obtain rfl := Option.some.inj (parsed.symm.trans reparsed)
  obtain rfl := Except.ok.inj (fits.symm.trans refits)
  obtain rfl := Except.ok.inj (encoded.symm.trans reencoded)
  obtain ⟨shown, written, -, shows⟩ := decodes (by decide)
  have same : schema.types.jsonOfValue "Bits" (schema.types.canonical "Bits" value) = .ok json := by
    cbv
  obtain rfl := Except.ok.inj (same.symm.trans written)
  refine ⟨printed, ?_⟩
  have shown : ∀ hex, environment.Gives hex bytes →
      let outcome := Invocation.run environment ⟨some .raw, .decode "bits" "Bits" hex true⟩
      outcome.exit = .success ∧ outcome.stdout = Bytes.ofText "[true]\n" := by
    intro hex gives
    have line : json.compact ++ "\n" = "[true]\n" := by decide
    rw [← wired] at gives
    obtain ⟨exit, prints⟩ := shows hex gives (some .raw)
    rw [← line]
    exact ⟨exit, (printsJson_iff (Namespace.exact_jsonOfValue written)).1 prints⟩
  rintro hex (rfl | rfl)
  · exact shown _ (.raw rfl)
  · exact shown _ (.digits (by decide))

end SchemaWire.CommandLine
