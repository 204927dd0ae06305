import SchemaWire.Proofs.RoundTrip
import SchemaWire.Proofs.SelfDelimiting

/-! The identifier in front of a message decides what the message may be read as.

It stands for a concrete type, and the payload behind it is read by that type alone. The type that
was asked for only has to lead to the concrete one, and it contributes the cases around the payload.
-/

set_option autoImplicit false

namespace SchemaWire.Codec

variable {codec : Codec} {type expected : String} {word : UInt64} {bytes : Bytes} {payload : Value}

theorem Opens.decode_eq (opens : Opens codec codec.maxDepth word type payload bytes)
    (bound : ∃ asked, codec.types.find? expected = some asked) :
    codec.decode expected bytes =
      match codec.types.casePath? expected type with
      | some path => .ok (payload.wrap path)
      | none => .error (.conversion expected (.misplacedIdentifier word.toNat type)) := by
  rw [decode, take, opens.takeAt_eq bound]
  cases codec.types.casePath? expected type with
  | none => rfl
  | some path => rfl

/-- A message that was written at one type can be read at every bound type from which cases lead to
its concrete type, as one payload in the case path to it, and at no other. A chain of no cases leads
from a type to itself. -/
theorem decode_iff_leads (codec : Codec) (written : String) (value : Value) (bytes : Bytes)
    (numbered : codec.identifiers.size + Identifier.first ≤ UInt64.size)
    (encoded : codec.encode written value = .ok bytes) (short : bytes.length < UInt64.size) :
    ∃ (identifier : Identifier) (payload : Value), payload.kind ≠ .enum ∧
      codec.identifiers.identifier? (value.concreteType written) = some identifier ∧
      ∀ expected, codec.types.contains expected = true →
        ((∃ read, codec.decode expected bytes = .ok read) ↔
          ∃ path, CaseChain codec.types.definitions expected path (value.concreteType written)) ∧
        (∀ read, codec.decode expected bytes = .ok read ↔
          ∃ path, codec.types.casePath? expected (value.concreteType written) = some path ∧
            read = payload.wrap path) ∧
        (∀ error, codec.decode expected bytes = .error error →
          error = .conversion expected
            (.misplacedIdentifier identifier (value.concreteType written))) := by
  obtain ⟨word, path, type, payload, rfl, concrete, chain, opens⟩ :=
    opens_of_encodeAt numbered (reads_of_numbered numbered codec.maxDepth)
      (Emission.result_eq_ok_iff.1 encoded) short
  rw [Value.concreteType_wrap chain concrete]
  refine ⟨word.toNat, codec.types.canonicalPayload type payload, ?_,
    IdentifierTable.name?_eq_some_iff.1 opens.named, fun expected known => ?_⟩
  · rwa [Namespace.kind_canonicalPayload]
  have bound : ∃ asked, codec.types.find? expected = some asked := by
    rwa [Namespace.contains, Option.isSome_iff_exists] at known
  rw [opens.decode_eq bound]
  cases reached : codec.types.casePath? expected type with
  | none =>
    have unreachable := Namespace.casePath?_eq_none_iff.1 reached
    simp [unreachable, eq_comm]
  | some found =>
    have leads := Namespace.caseChain_of_casePath? reached
    refine ⟨⟨fun _ => ⟨found, leads⟩, fun _ => ⟨_, rfl⟩⟩, ?_, ?_⟩
    · simp [eq_comm]
    · intro error refused
      cases refused

/-- A bit that was written as a sign is a tag and a bit as well, and no list of bits. -/
theorem decode_iff_leads_sign :
    ∃ payload, signs.decode "Sign" [1, 6, 1] = .ok (.enum "Tag" (.enum "Bit" payload)) ∧
      signs.decode "Tag" [1, 6, 1] = .ok (.enum "Bit" payload) ∧
      signs.decode "Bit" [1, 6, 1] = .ok payload ∧
      ¬ ∃ read, signs.decode "Bits" [1, 6, 1] = .ok read := by
  obtain ⟨identifier, payload, -, -, reads⟩ := decode_iff_leads signs "Sign"
    (.enum "Sign" (.enum "Tag" (.enum "Bit" (.builtin (.bool true))))) [1, 6, 1]
    numbered_signs (by cbv) (by decide)
  refine ⟨payload, (reads "Sign" (by decide)).2.1 _ |>.2 ⟨["Tag", "Bit"], by cbv, rfl⟩,
    (reads "Tag" (by decide)).2.1 _ |>.2 ⟨["Bit"], by cbv, rfl⟩,
    (reads "Bit" (by decide)).2.1 _ |>.2 ⟨[], by cbv, rfl⟩, ?_⟩
  rintro ⟨read, decoded⟩
  obtain ⟨path, reached, -⟩ := (reads "Bits" (by decide)).2.1 read |>.1 decoded
  have misplaced : signs.types.casePath? "Bits" "Bit" = none := by cbv
  cases misplaced.symm.trans reached

end SchemaWire.Codec
