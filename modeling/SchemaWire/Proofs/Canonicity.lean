import Mathlib.Data.List.Basic
import SchemaWire.Proofs.Decoding

/-! The wire format is canonical: bytes that decode are the bytes that the decoded value encodes to.

Reading returns a rest, so each statement says that what was read off the front is written again.
Recursion goes by the levels of nesting that are left; the case path that reading puts around a
payload is a chain of cases, and writing takes such a chain off again.
-/

set_option autoImplicit false

namespace SchemaWire.Codec

variable {codec : Codec} {room : Nat} {type expected : String} {bytes rest : Bytes}

/-- What was read as a whole piece is written as that piece. -/
def Rewrites (codec : Codec) (room : Nat) : Prop :=
  ∀ (type : String) (piece : Bytes) (value : Value),
    readPiece codec room type piece = .ok value → encodeAt codec room type value = .write piece

theorem encodeFields_of_takeFields (rewrites : codec.Rewrites room) {index : Nat}
    {fields : List String} {values : List Value}
    (taken : takeFields (readPiece codec room) type index fields bytes = .ok (values, rest)) :
    fields.length = values.length ∧ ∃ front,
      encodeFields codec room fields values = .write front ∧ bytes = front ++ rest := by
  induction fields generalizing index bytes values with
  | nil =>
    cases taken
    exact ⟨rfl, [], encodeFields_nil codec room, rfl⟩
  | cons field fields ih =>
    obtain ⟨piece, back, value, later, _, rfl, read, more, rfl⟩ :=
      takeFields_cons_eq_ok_iff.1 taken
    obtain ⟨counted, front, written, rfl⟩ := ih more
    refine ⟨by simp [counted], Varint.prefixed piece ++ front, ?_, by simp⟩
    exact encodeFields_cons_eq_write_iff.2
      ⟨piece, front, rewrites field piece value read, written, rfl⟩

theorem encodePayload_of_takePayload (rewrites : codec.Rewrites room) {definition : Definition}
    {payload : Value}
    (taken : takePayload (readPiece codec room) definition bytes = .ok (payload, rest)) :
    ∃ front, encodePayload codec room definition payload = .write front ∧
      bytes = front ++ rest := by
  simp only [takePayload] at taken
  split at taken
  · rename_i shape
    cases taken
    exact ⟨[], by simp [encodePayload, shape], rfl⟩
  · rename_i representation shape
    simp only [Outcome.bind_eq_ok_iff, Prod.exists, takePrimitive_eq_ok_iff,
      Outcome.pure_eq_ok_iff, Prod.mk.injEq] at taken
    obtain ⟨primitive, _, ⟨-, -, front, written, rfl⟩, rfl, rfl⟩ := taken
    exact ⟨front, by simpa [encodePayload, shape] using written, rfl⟩
  · rename_i fields shape
    simp only [Outcome.bind_eq_ok_iff, Prod.exists, Outcome.pure_eq_ok_iff, Prod.mk.injEq] at taken
    obtain ⟨values, _, read, rfl, rfl⟩ := taken
    obtain ⟨counted, front, written, rfl⟩ := encodeFields_of_takeFields rewrites read
    rw [List.length_map] at counted
    exact ⟨front, by simpa [encodePayload, shape, counted] using written, rfl⟩
  · rename_i element shape
    simp only [Outcome.bind_eq_ok_iff, Prod.exists, reading_eq_ok_iff,
      Varint.popLength_eq_ok_iff] at taken
    obtain ⟨count, back, ⟨fits, rfl⟩, read⟩ := taken
    split at read
    · exact absurd read (Outcome.throw_ne_ok _ _)
    · simp only [Outcome.bind_eq_ok_iff, Prod.exists, takeItems_eq_ok_iff,
        Outcome.pure_eq_ok_iff, Prod.mk.injEq] at read
      obtain ⟨items, _, read, rfl, rfl⟩ := read
      obtain ⟨counted, front, written, rfl⟩ := encodeFields_of_takeFields rewrites read
      rw [List.length_replicate] at counted
      subst counted
      rw [← encodeItems_eq_encodeFields] at written
      refine ⟨Varint.encodeWord (UInt64.ofNat items.length) ++ front, ?_, by simp⟩
      simp only [encodePayload, shape]
      exact Emission.andThen_eq_write_iff.2 ⟨_, front, rfl, written, rfl⟩
  · cases taken

theorem encodeAt_of_takeAt {value : Value}
    (taken : takeAt codec room expected bytes = .ok (value, rest)) :
    ∃ front, encodeAt codec room expected value = .write front ∧ bytes = front ++ rest := by
  induction room generalizing expected bytes value rest with
  | zero => cases taken
  | succ room ih =>
    obtain ⟨word, body, actual, definition, path, payload, -, rfl, named, found, concrete, reached,
      payloadTaken, rfl⟩ := takeAt_eq_ok_iff.1 taken
    -- The parts are read with a level less, so each of them is rewritten.
    have rewrites : codec.Rewrites room := by
      intro type piece value read
      obtain ⟨front, written, rfl⟩ := ih (exactly_eq_ok_iff.1 read)
      rwa [List.append_nil]
    obtain ⟨front, written, rfl⟩ := encodePayload_of_takePayload rewrites payloadTaken
    have identified : encodeIdentifier codec actual = .write (Varint.encodeWord word) := by
      refine encodeIdentifier_eq_write_iff.2 ⟨word.toNat, ?_, by rw [UInt64.ofNat_toNat]⟩
      exact IdentifierTable.name?_eq_some_iff.1 named
    refine ⟨Varint.encodeWord word ++ front, ?_, by simp⟩
    -- Writing takes off the cases that reading has put around the payload.
    rw [encodeAt_wrap (Namespace.caseChain_of_casePath? reached), encodeAt_concrete found concrete]
    exact Emission.andThen_eq_write_iff.2 ⟨_, front, identified, written, rfl⟩

theorem encode_of_decode {value : Value} (decoded : codec.decode expected bytes = .ok value) :
    codec.encode expected value = .ok bytes := by
  obtain ⟨front, written, shape⟩ := encodeAt_of_takeAt (exactly_eq_ok_iff.1 decoded)
  rw [List.append_nil] at shape
  exact Emission.result_eq_ok_iff.2 (shape ▸ written)

/-- Bytes that decode are the one encoding of their value. -/
theorem decode_canonical (codec : Codec) (type : String) (bytes : Bytes) (value : Value)
    (decoded : codec.decode type bytes = .ok value) :
    codec.encode type value = .ok bytes ∧
      ∀ other, codec.decode type other = .ok value → other = bytes := by
  have written := encode_of_decode decoded
  refine ⟨written, ?_⟩
  intro other decodedOther
  have writtenOther := encode_of_decode decodedOther
  rw [written] at writtenOther
  exact (Except.ok.inj writtenOther).symm

/-- Lists of signs. A sign is a sign again or a tag, so many chains of cases lead to a bit. -/
def signs : Codec :=
  .ofNamespace
    { definitions :=
        [⟨"Bit", .builtin .bool⟩,
          ⟨"Bits", .list (.named "Sign")⟩,
          ⟨"Sign", .enum [.named "Tag", .self]⟩,
          ⟨"Tag", .enum [.named "Bit"]⟩]
      distinct := by decide }

theorem numbered_signs : signs.identifiers.size + Identifier.first ≤ UInt64.size := by
  rw [show signs.identifiers.size = 4 from IdentifierTable.size_assign signs.types]
  decide

theorem decode_canonical_signs :
    signs.encode "Bits" (.list [.enum "Tag" (.enum "Bit" (.builtin (.bool true)))]) =
        .ok [1, 7, 1, 1, 1, 3, 1, 6, 1] ∧
      ∀ other, signs.decode "Bits" other =
        .ok (.list [.enum "Tag" (.enum "Bit" (.builtin (.bool true)))]) →
        other = [1, 7, 1, 1, 1, 3, 1, 6, 1] :=
  decode_canonical signs "Bits" [1, 7, 1, 1, 1, 3, 1, 6, 1]
    (.list [.enum "Tag" (.enum "Bit" (.builtin (.bool true)))]) (by cbv)

end SchemaWire.Codec
