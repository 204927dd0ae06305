import SchemaWire.Proofs.SelfDelimiting
import SchemaWire.Proofs.UncheckedCounts

/-! A decoded value is no larger than its bytes allow.

No identifier is below six, so each is a varint of two bytes at least, and what stands behind a
length is a value and takes bytes as well, so its length has two bytes too. Four bytes for each node
are therefore in the input, but for the length that the outermost one does not have.
-/

set_option autoImplicit false

namespace SchemaWire

theorem Varint.two_le_length_encodeWord (word : UInt64) (positive : word.toNat ≠ 0) :
    2 ≤ (encodeWord word).length := by
  have digits : Bytes.ofNat word.toNat ≠ [] := fun none => positive (Bytes.ofNat_eq_nil_iff.1 none)
  have counted := List.length_pos_of_ne_nil digits
  rw [encodeWord_eq, List.length_cons]
  omega

theorem Varint.length_prefixed_of_pos {payload : Bytes} (nonempty : 0 < payload.length)
    (small : payload.length < UInt64.size) : payload.length + 2 ≤ (prefixed payload).length := by
  have word : (UInt64.ofNat payload.length).toNat = payload.length :=
    UInt64.toNat_ofNat_of_lt' small
  have counted := two_le_length_encodeWord (UInt64.ofNat payload.length) (by omega)
  rw [prefixed, List.length_append]
  omega

namespace Codec

variable {codec : Codec} {room : Nat} {type expected : String} {bytes rest : Bytes}
  {read : String → Bytes → Except CodecError Value} {definition : Definition}
  {payload value : Value}

/-! ## Pieces -/

/-- The parts of a value are read from pieces of the bytes that stand behind their lengths. -/
def ReadFrom (read : String → Bytes → Except CodecError Value) (values : List Value)
    (pieces : List Bytes) : Prop :=
  List.Forall₂ (fun value piece => piece.length < UInt64.size ∧
    ∃ field, read field piece = .ok value) values pieces

theorem readFrom_of_takeFields {index : Nat} {fields : List String} {values : List Value}
    (taken : takeFields read type index fields bytes = .ok (values, rest)) :
    ∃ pieces, ReadFrom read values pieces ∧ bytes = pieces.flatMap Varint.prefixed ++ rest := by
  induction fields generalizing index bytes values with
  | nil =>
    cases taken
    exact ⟨[], .nil, rfl⟩
  | cons field fields ih =>
    obtain ⟨piece, back, value, later, fits, rfl, first, others, rfl⟩ :=
      takeFields_cons_eq_ok_iff.1 taken
    obtain ⟨pieces, laterRead, rfl⟩ := ih others
    exact ⟨piece :: pieces, .cons ⟨fits, field, first⟩ laterRead, (List.append_assoc ..).symm⟩

theorem readFrom_of_takePayload (taken : takePayload read definition bytes = .ok (payload, rest)) :
    ∃ front pieces, ReadFrom read payload.parts pieces ∧
      bytes = front ++ pieces.flatMap Varint.prefixed ++ rest := by
  simp only [takePayload] at taken
  split at taken
  · cases taken
    exact ⟨[], [], .nil, rfl⟩
  · simp only [Outcome.bind_eq_ok_iff, Prod.exists, takePrimitive_eq_ok_iff,
      Outcome.pure_eq_ok_iff, Prod.mk.injEq] at taken
    obtain ⟨primitive, _, ⟨-, -, front, -, rfl⟩, rfl, rfl⟩ := taken
    exact ⟨front, [], .nil, by simp⟩
  · simp only [Outcome.bind_eq_ok_iff, Prod.exists, Outcome.pure_eq_ok_iff, Prod.mk.injEq] at taken
    obtain ⟨values, _, fields, rfl, rfl⟩ := taken
    obtain ⟨pieces, parts, rfl⟩ := readFrom_of_takeFields fields
    exact ⟨[], pieces, parts, rfl⟩
  · simp only [Outcome.bind_eq_ok_iff, Prod.exists, reading_eq_ok_iff,
      Varint.popLength_eq_ok_iff] at taken
    obtain ⟨count, back, ⟨-, rfl⟩, taken⟩ := taken
    split at taken
    · exact absurd taken (Outcome.throw_ne_ok _ _)
    · simp only [Outcome.bind_eq_ok_iff, Prod.exists, takeItems_eq_ok_iff, Outcome.pure_eq_ok_iff,
        Prod.mk.injEq] at taken
      obtain ⟨items, _, elements, rfl, rfl⟩ := taken
      obtain ⟨pieces, parts, rfl⟩ := readFrom_of_takeFields elements
      exact ⟨_, pieces, parts, (List.append_assoc ..).symm⟩
  · cases taken

/-! ## Nodes -/

theorem nodesOfParts_le {values : List Value} {pieces : List Bytes}
    (parts : ReadFrom read values pieces)
    (each : ∀ field piece value, read field piece = .ok value →
      4 * value.nodes ≤ piece.length + 2) :
    4 * Value.nodesOfParts values ≤ (pieces.flatMap Varint.prefixed).length := by
  induction parts with
  | nil => exact Nat.le_refl 0
  | @cons value piece values pieces first _ ih =>
    obtain ⟨small, field, read⟩ := first
    have nodes := each field piece value read
    have positive := value.nodes_pos
    have counted := Varint.length_prefixed_of_pos (by omega) small
    rw [Value.nodesOfParts, List.flatMap_cons, List.length_append]
    omega

theorem nodes_le_of_takeAt (taken : takeAt codec room expected bytes = .ok (value, rest)) :
    4 * value.nodes ≤ bytes.length + 2 := by
  induction room generalizing expected bytes value rest with
  | zero => cases taken
  | succ room ih =>
    obtain ⟨word, body, actual, definition, path, payload, -, rfl, named, -, concrete, -,
      payloadTaken, rfl⟩ := takeAt_eq_ok_iff.1 taken
    obtain ⟨front, pieces, parts, rfl⟩ := readFrom_of_takePayload payloadTaken
    have bound : 6 ≤ word.toNat := IdentifierTable.first_le_of_name? named
    have header := Varint.two_le_length_encodeWord word (by omega)
    have below := nodesOfParts_le parts fun field piece value read =>
      ih (exactly_eq_ok_iff.1 read)
    rw [Value.nodes_wrap, Value.nodes_eq (kind_of_takePayload payloadTaken ▸ concrete)]
    simp only [List.length_append]
    omega

/-! ## Texts -/

theorem ReadFrom.exists_piece {values : List Value} {pieces : List Bytes} {part : Value}
    (parts : ReadFrom read values pieces) (member : part ∈ values) :
    ∃ field piece, read field piece = .ok part ∧
      piece.length ≤ (pieces.flatMap Varint.prefixed).length := by
  induction parts with
  | nil => cases member
  | @cons value piece values pieces first _ ih =>
    rw [List.flatMap_cons, List.length_append]
    rcases List.mem_cons.1 member with rfl | member
    · obtain ⟨-, field, read⟩ := first
      have shorter := Varint.length_lt_length_prefixed piece
      exact ⟨field, piece, read, by omega⟩
    · obtain ⟨field, piece, read, shorter⟩ := ih member
      exact ⟨field, piece, read, by omega⟩

theorem length_le_length_encodeText (text : String) :
    text.toList.length ≤ (encodeText text).length := by
  have counted := length_le_length_encodeCharacters text.toList
  simp only [encodeText, encodeCharacters, List.length_append] at counted ⊢
  omega

theorem text_le_of_takePayload {text : String}
    (taken : takePayload read definition bytes = .ok (.builtin (.text text), rest)) :
    text.toList.length ≤ bytes.length := by
  have shape : ∃ representation, definition.shape = .builtin representation := by
    have kind := kind_of_takePayload taken
    cases shape : definition.shape with
    | builtin representation => exact ⟨representation, rfl⟩
    | _ => simp [Definition.kind, shape, Shape.kind, Value.kind] at kind
  obtain ⟨representation, shape⟩ := shape
  simp only [takePayload, shape, Outcome.bind_eq_ok_iff, Prod.exists, takePrimitive_eq_ok_iff,
    Outcome.pure_eq_ok_iff, Prod.mk.injEq, Value.builtin.injEq] at taken
  obtain ⟨_, _, ⟨-, -, front, written, rfl⟩, rfl, rfl⟩ := taken
  have counted := length_le_length_encodeText text
  rw [List.length_append]
  cases representation with
  | text =>
    obtain rfl := Emission.write_inj.1 written
    omega
  | _ => exact absurd written (Emission.fail_ne_write _)

theorem text_le_of_takeAt {text : String}
    (taken : takeAt codec room expected bytes = .ok (value, rest))
    (within : Value.Within (.builtin (.text text)) value) : text.toList.length ≤ bytes.length := by
  induction room generalizing expected bytes value rest with
  | zero => cases taken
  | succ room ih =>
    obtain ⟨word, body, actual, definition, path, payload, -, rfl, -, -, concrete, -,
      payloadTaken, rfl⟩ := takeAt_eq_ok_iff.1 taken
    rw [List.length_append]
    have leaf : (Value.builtin (.text text)).kind ≠ .enum := by simp [Value.kind]
    cases Value.within_of_wrap leaf within with
    | here =>
      have shorter := text_le_of_takePayload payloadTaken
      omega
    | case _ _ => exact absurd (kind_of_takePayload payloadTaken).symm concrete
    | part member within =>
      obtain ⟨front, pieces, parts, rfl⟩ := readFrom_of_takePayload payloadTaken
      obtain ⟨field, piece, read, shorter⟩ := parts.exists_piece member
      have inner := ih (exactly_eq_ok_iff.1 read) within
      simp only [List.length_append]
      omega

/-- The checks on counts refuse nothing that could be read: under a count beyond the input neither
the elements of a list nor the characters of a text can be read, and without the checks the same
bytes decode to the same values. What is decoded is bounded by the bytes: four of them for each node,
but for two, and one for each character of any text. -/
theorem decode_bounded :
    (∀ (read : Bytes → Except CodecError Value) (type : String) (index count : Nat) (bytes : Bytes),
      bytes.length < count → ∃ error, takeItems read type index count bytes = .error error) ∧
    (∀ (type : String) (count : Nat) (bytes : Bytes),
      bytes.length < count → ∃ error, takeCharacters type count bytes = .error error) ∧
    (∀ (codec : Codec) (type : String) (bytes : Bytes) (value : Value),
      codec.decode type bytes = .ok value ↔ codec.decodeUnchecked type bytes = .ok value) ∧
    ∀ (codec : Codec) (type : String) (bytes : Bytes) (value : Value),
      codec.decode type bytes = .ok value →
        4 * value.nodes - 2 ≤ bytes.length ∧
          ∀ text, Value.Within (.builtin (.text text)) value →
            text.toList.length ≤ bytes.length := by
  refine ⟨?_, ?_, fun codec type bytes value => decodeUnchecked_eq_ok_iff.symm, ?_⟩
  · intro read type index count bytes beyond
    cases taken : takeItems read type index count bytes with
    | error error => exact ⟨error, rfl⟩
    | ok result => exact absurd taken (takeItems_ne_ok beyond result)
  · intro type count bytes beyond
    cases taken : takeCharacters type count bytes with
    | error error => exact ⟨error, rfl⟩
    | ok result => exact absurd taken (takeCharacters_ne_ok beyond result)
  · intro codec type bytes value decoded
    have taken := exactly_eq_ok_iff.1 decoded
    have nodes := nodes_le_of_takeAt taken
    exact ⟨by omega, fun text within => text_le_of_takeAt taken within⟩

/-- A parcel has five nodes and one character. Four parcels are not announced in front of three
bytes, nor are four characters. -/
theorem decode_bounded_parcels :
    let bytes : Bytes := [1, 8, 1, 6, 1, 7, 1, 1, 1, 73, 1, 4, 1, 10, 1, 7, 1, 3, 1, 6, 0xab, 1, 3,
      1, 9, 0]
    let parcel : Value := .record [.builtin (.text "I"), .builtin (.varint 7),
      .builtin (.bytes [0xab]), .list []]
    (∃ error, takeItems (readPiece (ofNamespace .parcels) 1 "Parcel") "Parcels" 0 4 [0, 0, 0] =
        .error error) ∧
      (∃ error, takeCharacters "Label" 4 [1, 73, 0] = .error error) ∧
      (ofNamespace .parcels).decodeUnchecked "Parcel" bytes = .ok parcel ∧
      4 * 5 - 2 ≤ bytes.length ∧ "I".toList.length ≤ bytes.length := by
  intro bytes parcel
  obtain ⟨items, characters, unchecked, bounded⟩ := decode_bounded
  have decoded : (ofNamespace .parcels).decode "Parcel" bytes = .ok parcel := by
    rw [ofNamespace, assign_parcels]
    rfl
  obtain ⟨nodes, texts⟩ := bounded _ "Parcel" bytes parcel decoded
  have label : Value.Within (.builtin (.text "I")) parcel := .part List.mem_cons_self .here
  exact ⟨items _ _ _ _ _ (by decide), characters _ _ _ (by decide),
    (unchecked _ _ _ _).1 decoded, nodes, texts "I" label⟩

end Codec

end SchemaWire
