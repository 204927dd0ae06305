import SchemaWire.Proofs.CanonicalValue
import SchemaWire.Proofs.Canonicity

/-! What is written can be read, and reads as the canonical form of the value.

No guard of the reader refuses what the writer leaves behind, as long as the buffer and the table of
identifiers fit the address space. The cases around a payload are lost, and the case path stands in
their place.
-/

set_option autoImplicit false

namespace SchemaWire.Codec

variable {codec : Codec} {room : Nat} {type : String} {bytes : Bytes}

/-- What was written within the address space reads as the canonical form. -/
def Reads (codec : Codec) (room : Nat) : Prop :=
  ∀ (type : String) (value : Value) (piece : Bytes),
    encodeAt codec room type value = .write piece → piece.length < UInt64.size →
      readPiece codec room type piece = .ok (codec.types.canonical type value)

/-! ## Parts -/

theorem length_le_length_encodeFields {fields : List String} {values : List Value}
    (counted : fields.length = values.length)
    (written : encodeFields codec room fields values = .write bytes) :
    values.length ≤ bytes.length := by
  induction fields generalizing values bytes with
  | nil =>
    rw [← counted]
    exact Nat.zero_le _
  | cons field fields ih =>
    cases values with
    | nil => cases counted
    | cons value values =>
      obtain ⟨piece, back, _, later, rfl⟩ := encodeFields_cons_eq_write_iff.1 written
      have fewer := ih (Nat.succ.inj counted) later
      have positive := Varint.length_lt_length_prefixed piece
      rw [List.length_cons, List.length_append]
      omega

theorem takeFields_of_encodeFields (reads : codec.Reads room) (type : String) (index : Nat)
    {fields : List String} {values : List Value} (counted : fields.length = values.length)
    (written : encodeFields codec room fields values = .write bytes)
    (short : bytes.length < UInt64.size) :
    takeFields (readPiece codec room) type index fields bytes =
      .ok (codec.types.canonicalParts fields values, []) := by
  induction fields generalizing index values bytes with
  | nil =>
    obtain rfl := List.length_eq_zero_iff.1 counted.symm
    obtain rfl := Emission.write_inj.1 ((encodeFields_nil codec room).symm.trans written)
    rfl
  | cons field fields ih =>
    cases values with
    | nil => cases counted
    | cons value values =>
      obtain ⟨piece, back, first, later, rfl⟩ := encodeFields_cons_eq_write_iff.1 written
      -- A piece is shorter than the buffer it stands in, so its length is a machine word too.
      have shorter := Varint.length_lt_length_prefixed piece
      rw [List.length_append] at short
      have pieceShort : piece.length < UInt64.size := by omega
      have backShort : back.length < UInt64.size := by omega
      exact takeFields_cons_eq_ok_iff.2 ⟨piece, back, codec.types.canonical field value, _,
        pieceShort, rfl, reads field value piece first pieceShort,
        ih (index + 1) (Nat.succ.inj counted) later backShort, by rw [Namespace.canonicalParts]; rfl⟩

/-! ## Payloads -/

theorem countable_of_encodePrimitive {representation : Representation} {primitive : Primitive}
    (written : encodePrimitive type representation primitive = .write bytes)
    (short : bytes.length < UInt64.size) : primitive.Countable := by
  cases primitive with
  | text text =>
    cases representation with
    | text =>
      obtain rfl := Emission.write_inj.1 written
      have counted := length_le_length_encodeCharacters text.toList
      have characters : (encodeCharacters text.toList).length ≤ (encodeText text).length := by
        simp only [encodeText, encodeCharacters, List.length_append]
        omega
      exact Nat.lt_of_le_of_lt (Nat.le_trans counted characters) short
    | _ => exact absurd written (Emission.fail_ne_write _)
  | _ => trivial

theorem takePayload_of_encodePayload (reads : codec.Reads room) {definition : Definition}
    (found : codec.types.find? type = some definition) {payload : Value}
    (written : encodePayload codec room definition payload = .write bytes)
    (short : bytes.length < UInt64.size) :
    takePayload (readPiece codec room) definition bytes =
      .ok (codec.types.canonicalPayload type payload, []) := by
  simp only [encodePayload] at written
  split at written
  · rename_i shape
    obtain rfl := Emission.write_inj.1 written
    simp [takePayload, shape, Namespace.canonicalPayload]
  · rename_i representation primitive shape
    have countable := countable_of_encodePrimitive written short
    have taken := takePrimitive_eq_ok_iff.2
      ⟨countable, fun _ => rfl, bytes, written, (List.append_nil bytes).symm⟩
    simp only [takePayload, shape, taken]
    rfl
  · rename_i fields values shape
    split at written
    · rename_i counted
      have taken := takeFields_of_encodeFields reads definition.name 0
        (by rwa [List.length_map]) written short
      have parts : codec.types.partTypes type values.length =
          fields.map (·.resolve definition.name) := by
        simp [Namespace.partTypes, found, Definition.partTypes, shape]
      simp only [takePayload, shape, taken, Namespace.canonicalPayload, parts]
      rfl
    · exact absurd written (Emission.fail_ne_write _)
  · rename_i element items shape
    obtain ⟨_, back, count, later, rfl⟩ := Emission.andThen_eq_write_iff.1 written
    obtain rfl := Emission.write_inj.1 count
    rw [encodeItems_eq_encodeFields] at later
    have counted : (List.replicate items.length (element.resolve definition.name)).length =
        items.length := List.length_replicate
    -- The elements take at least as many bytes as there are, so the guard on the count lets them in.
    have fewer := length_le_length_encodeFields counted later
    rw [List.length_append] at short
    have backShort : back.length < UInt64.size := by omega
    have fits : items.length < UInt64.size := by omega
    have taken := takeItems_eq_ok_iff.2
      (takeFields_of_encodeFields reads definition.name 0 counted later backShort)
    have parts : codec.types.partTypes type items.length =
        List.replicate items.length (element.resolve definition.name) := by
      simp [Namespace.partTypes, found, Definition.partTypes, shape]
    simp only [takePayload, shape, Namespace.canonicalPayload, parts]
    have announced := Varint.popLength_eq_ok_iff.2
      ⟨fits, Eq.refl (Varint.encodeWord (UInt64.ofNat items.length) ++ back)⟩
    rw [announced]
    show (if items.length > back.length then _ else _) = _
    rw [if_neg (Nat.not_lt_of_le fewer), taken]
    rfl
  · exact absurd written (Emission.fail_ne_write _)

/-! ## Values -/

theorem kind_ne_enum_of_encodePayload {definition : Definition}
    (found : codec.types.find? type = some definition) {payload : Value}
    (written : encodePayload codec room definition payload = .write bytes) :
    payload.kind ≠ .enum :=
  (payloadOf_of_encodePayload (motive := fun _ _ => True) (fun _ => trivial) found written).concrete

structure Opens (codec : Codec) (room : Nat) (word : UInt64) (type : String) (payload : Value)
    (bytes : Bytes) : Prop where
  named : codec.identifiers.name? word.toNat = some type
  followed : ∃ definition body, codec.types.find? type = some definition ∧
    definition.kind ≠ .enum ∧ bytes = Varint.encodeWord word ++ body ∧
    takePayload (readPiece codec room) definition body = .ok (payload, [])

/-- Which type is expected matters for the cases around the payload and for nothing else. -/
theorem Opens.takeAt_eq {word : UInt64} {payload : Value} {expected : String}
    (opens : Opens codec room word type payload bytes)
    (bound : ∃ asked, codec.types.find? expected = some asked) :
    takeAt codec (room + 1) expected bytes =
      match codec.types.casePath? expected type with
      | some path => .ok (payload.wrap path, [])
      | none => .error (.conversion expected (.misplacedIdentifier word.toNat type)) := by
  obtain ⟨definition, body, found, concrete, rfl, taken⟩ := opens.followed
  obtain ⟨asked, known⟩ := bound
  have first : reading expected .malformedIdentifier
      (Varint.popWord (Varint.encodeWord word ++ body)) = .ok (word, body) :=
    reading_eq_ok_iff.2 (Varint.popWord_eq_ok_iff.2 rfl)
  simp only [takeAt, Codec.definition, known, first, opens.named, found, if_neg concrete,
    bind, Except.bind]
  cases codec.types.casePath? expected type with
  | none => rfl
  | some path =>
    show (takePayload (readPiece codec room) definition body).bind _ = _
    rw [taken]
    rfl

theorem opens_of_encodeAt (numbered : codec.identifiers.size + Identifier.first ≤ UInt64.size)
    (reads : codec.Reads room) {expected : String} {value : Value}
    (written : encodeAt codec (room + 1) expected value = .write bytes)
    (short : bytes.length < UInt64.size) :
    ∃ word path type payload, value = payload.wrap path ∧ payload.kind ≠ .enum ∧
      CaseChain codec.types.definitions expected path type ∧
      Opens codec room word type (codec.types.canonicalPayload type payload) bytes := by
  obtain ⟨path, type, payload, definition, rfl, chain, found, concrete, emitted⟩ :=
    encodeAt_cases value written
  obtain ⟨_, body, identified, payloadWritten, rfl⟩ := Emission.andThen_eq_write_iff.1 emitted
  obtain ⟨identifier, named, rfl⟩ := encodeIdentifier_eq_write_iff.1 identified
  -- No identifier of the table is cut off when it is written as a machine word.
  have word : (UInt64.ofNat identifier).toNat = identifier :=
    UInt64.toNat_ofNat_of_lt' (Nat.lt_of_lt_of_le (IdentifierTable.identifier?_lt named) numbered)
  have bodyShort : body.length < UInt64.size := by
    rw [List.length_append] at short
    omega
  have taken := takePayload_of_encodePayload reads found payloadWritten bodyShort
  refine ⟨UInt64.ofNat identifier, path, type, payload, rfl,
    kind_ne_enum_of_encodePayload found payloadWritten, chain, ?_,
    definition, body, found, concrete, rfl, taken⟩
  rw [word]
  exact IdentifierTable.name?_eq_some_iff.2 named

theorem reads_of_numbered (numbered : codec.identifiers.size + Identifier.first ≤ UInt64.size)
    (room : Nat) : codec.Reads room := by
  induction room with
  | zero =>
    intro expected value piece written _
    obtain ⟨_, _, none, _⟩ := encodeAt_bound written
    cases none
  | succ room reads =>
    intro expected value piece written short
    obtain ⟨_, bound, _, known⟩ := encodeAt_bound written
    obtain ⟨word, path, type, payload, rfl, concrete, chain, opens⟩ :=
      opens_of_encodeAt numbered reads written short
    -- The chain that was written may differ from the one that is found, but one is found.
    obtain ⟨other, reached⟩ := Namespace.exists_casePath?_of_caseChain chain
    rw [Namespace.canonical_wrap chain concrete reached]
    refine exactly_eq_ok_iff.2 ?_
    rw [opens.takeAt_eq ⟨bound, known⟩, reached]

theorem decode_of_encode (numbered : codec.identifiers.size + Identifier.first ≤ UInt64.size)
    {value : Value} (written : codec.encode type value = .ok bytes)
    (short : bytes.length < UInt64.size) :
    codec.decode type bytes = .ok (codec.types.canonical type value) :=
  reads_of_numbered numbered _ type value bytes (Emission.result_eq_ok_iff.1 written) short

/-- Reading gives back the value with the case path at every place, which is the value itself
exactly when it had the case paths already. That the table and the buffer fit the address space
makes every identifier and every length in them a machine word. -/
theorem decode_encode (codec : Codec) (type : String) (value : Value) (bytes : Bytes)
    (numbered : codec.identifiers.size + Identifier.first ≤ UInt64.size)
    (written : codec.encode type value = .ok bytes) (short : bytes.length < UInt64.size) :
    codec.decode type bytes = .ok (codec.types.canonical type value) ∧
      codec.encode type (codec.types.canonical type value) = .ok bytes ∧
      (codec.decode type bytes = .ok value ↔ codec.types.Settled type value) ∧
      (codec.types.Unambiguous → codec.decode type bytes = .ok value) := by
  have decoded := decode_of_encode numbered written short
  -- Canonicity does the rest: bytes that decode are the encoding of what they decode to.
  have emitted := Emission.result_eq_ok_iff.1 written
  have same : codec.decode type bytes = .ok value ↔ codec.types.Settled type value := by
    rw [decoded, Except.ok.injEq]
    exact canonical_eq_iff emitted
  refine ⟨decoded, encode_of_decode decoded, same, ?_⟩
  intro unambiguous
  exact same.2 (settled_of_unambiguous unambiguous emitted)

/-- The chain of the one sign here goes the long way, so it does not come back. -/
theorem decode_encode_signs :
    signs.decode "Bits" [1, 7, 1, 1, 1, 3, 1, 6, 1] =
        .ok (signs.types.canonical "Bits" (.list [.enum "Sign" (.enum "Tag" (.enum "Bit"
          (.builtin (.bool true))))])) ∧
      ¬ signs.types.Settled "Bits" (.list [.enum "Sign" (.enum "Tag" (.enum "Bit"
        (.builtin (.bool true))))]) := by
  obtain ⟨decoded, -, same, -⟩ := decode_encode signs "Bits"
    (.list [.enum "Sign" (.enum "Tag" (.enum "Bit" (.builtin (.bool true))))])
    [1, 7, 1, 1, 1, 3, 1, 6, 1] numbered_signs (by cbv) (by decide)
  refine ⟨decoded, ?_⟩
  rw [← same]
  have short : signs.decode "Bits" [1, 7, 1, 1, 1, 3, 1, 6, 1] =
      .ok (.list [.enum "Tag" (.enum "Bit" (.builtin (.bool true)))]) := by cbv
  rw [short]
  simp

end SchemaWire.Codec
