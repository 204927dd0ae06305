import SchemaWire.Codec.Decode
import SchemaWire.Proofs.Encoding
import SchemaWire.Proofs.Varint

/-! What a successful read consists of.

Every reader below the values accepts a result just when the input begins with its encoding, so each
has one statement for both directions. Reading a value is opened into its steps.
-/

set_option autoImplicit false

namespace SchemaWire

/-- The characters of a text have to be counted by a machine word. No other primitive has a bound
that its encoding does not check. -/
def Primitive.Countable : Primitive → Prop
  | .text content => content.toList.length < UInt64.size
  | _ => True

namespace Codec

variable {codec : Codec} {type expected : String} {bytes rest : Bytes}

theorem reading_eq_ok_iff {α : Type} {cause : CodecRefusal} {read : Except Varint.Refusal α}
    {a : α} : reading type cause read = .ok a ↔ read = .ok a :=
  Outcome.mapError_eq_ok_iff

/-! ## Text -/

theorem toNat_lt_size (c : Char) : c.toNat < UInt64.size :=
  Nat.lt_of_lt_of_le c.val.toNat_lt (by decide)

theorem scalar?_eq_some_iff {codePoint : Nat} {c : Char} :
    scalar? codePoint = some c ↔ codePoint = c.toNat := by
  by_cases valid : codePoint.isValidChar
  · rw [scalar?, dif_pos valid, Option.some.injEq]
    constructor
    · rintro rfl
      rfl
    · intro same
      exact Char.toNat_inj.1 same
  · rw [scalar?, dif_neg valid]
    constructor
    · intro found
      cases found
    · rintro rfl
      exact absurd c.valid valid

def encodeCharacters (characters : List Char) : Bytes :=
  characters.flatMap fun c => Varint.encodeWord (UInt64.ofNat c.toNat)

theorem length_le_length_encodeCharacters (characters : List Char) :
    characters.length ≤ (encodeCharacters characters).length := by
  induction characters with
  | nil => simp
  | cons c characters ih =>
    have := Varint.length_encodeWord_pos (UInt64.ofNat c.toNat)
    simp only [encodeCharacters, List.flatMap_cons, List.length_append, List.length_cons] at ih ⊢
    omega

theorem takeCharacters_eq_ok_iff {count : Nat} {characters : List Char} :
    takeCharacters type count bytes = .ok (characters, rest) ↔
      characters.length = count ∧ bytes = encodeCharacters characters ++ rest := by
  induction count generalizing bytes characters with
  | zero =>
    simp only [takeCharacters, Except.ok.injEq, Prod.mk.injEq, List.length_eq_zero_iff]
    constructor
    · rintro ⟨rfl, rfl⟩
      exact ⟨rfl, rfl⟩
    · rintro ⟨rfl, rfl⟩
      exact ⟨rfl, rfl⟩
  | succ count ih =>
    simp only [takeCharacters, Outcome.bind_eq_ok_iff, Prod.exists, reading_eq_ok_iff,
      Varint.popWord_eq_ok_iff]
    constructor
    · rintro ⟨word, bytes, rfl, read⟩
      split at read
      · exact absurd read (Outcome.throw_ne_ok _ _)
      · rename_i c scalar
        simp only [Outcome.bind_eq_ok_iff, Prod.exists, Outcome.pure_eq_ok_iff,
          Prod.mk.injEq] at read
        obtain ⟨later, _, taken, rfl, rfl⟩ := read
        obtain ⟨rfl, rfl⟩ := ih.1 taken
        have same : word = UInt64.ofNat c.toNat := by
          rw [← scalar?_eq_some_iff.1 scalar, UInt64.ofNat_toNat]
        exact ⟨rfl, by simp [encodeCharacters, same]⟩
    · rintro ⟨counted, rfl⟩
      -- A character is never a surrogate, so its code point is accepted.
      cases characters with
      | nil => cases counted
      | cons c characters =>
        refine ⟨UInt64.ofNat c.toNat, encodeCharacters characters ++ rest, ?_, ?_⟩
        · simp [encodeCharacters]
        · rw [UInt64.toNat_ofNat_of_lt' (toNat_lt_size c), scalar?_eq_some_iff.2 rfl]
          simp only [Outcome.bind_eq_ok_iff, Prod.exists]
          refine ⟨characters, rest, ih.2 ⟨Nat.succ.inj counted, rfl⟩, rfl⟩

/-- The guard on the count refuses nothing that could be read: every character takes a byte. -/
theorem takeText_eq_ok_iff {text : String} :
    takeText type bytes = .ok (text, rest) ↔
      text.toList.length < UInt64.size ∧ bytes = encodeText text ++ rest := by
  simp only [takeText, Outcome.bind_eq_ok_iff, Prod.exists, reading_eq_ok_iff,
    Varint.popLength_eq_ok_iff]
  constructor
  · rintro ⟨count, bytes, ⟨fits, rfl⟩, read⟩
    split at read
    · exact absurd read (Outcome.throw_ne_ok _ _)
    · simp only [Outcome.bind_eq_ok_iff, Prod.exists, takeCharacters_eq_ok_iff,
        Outcome.pure_eq_ok_iff, Prod.mk.injEq] at read
      obtain ⟨characters, _, ⟨rfl, rfl⟩, rfl, rfl⟩ := read
      rw [String.toList_ofList]
      exact ⟨fits, by simp [encodeText, encodeCharacters]⟩
  · rintro ⟨fits, rfl⟩
    refine ⟨text.toList.length, encodeCharacters text.toList ++ rest, ⟨fits, ?_⟩, ?_⟩
    · simp [encodeText, encodeCharacters]
    · have counted := length_le_length_encodeCharacters text.toList
      rw [if_neg (by rw [List.length_append]; omega)]
      simp only [Outcome.bind_eq_ok_iff, Prod.exists, takeCharacters_eq_ok_iff]
      exact ⟨text.toList, rest, ⟨rfl, rfl⟩, by rw [String.ofList_toList]; rfl⟩

/-! ## Primitives -/

theorem encodePrimitive_varint_eq_write_iff {n : Nat} :
    encodePrimitive type .varint (.varint n) = .write bytes ↔ Varint.encode n = .ok bytes := by
  simp only [encodePrimitive]
  split
  · rename_i written
    simp [written, Emission.write_inj]
  · rename_i refused
    simp [refused]

theorem takePrimitive_bool_eq_ok_iff {value : Bool} :
    takePrimitive type .bool bytes = .ok (.bool value, rest) ↔
      bytes = (if value then 1 else 0) :: rest := by
  cases bytes with
  | nil => simp [takePrimitive]
  | cons byte bytes =>
    simp only [takePrimitive]
    split
    · rename_i zero
      cases value <;> simp [zero]
    · rename_i positive
      split
      · rename_i one
        cases value <;> simp [one]
      · rename_i large
        cases value <;> simp [positive, large]

theorem takePrimitive_eq_ok_iff {representation : Representation} {primitive : Primitive} :
    takePrimitive type representation bytes = .ok (primitive, rest) ↔
      primitive.Countable ∧ (representation = .bytes → rest = []) ∧ ∃ front,
        encodePrimitive type representation primitive = .write front ∧ bytes = front ++ rest := by
  cases representation with
  | varint =>
    simp only [takePrimitive, Outcome.bind_eq_ok_iff, Prod.exists, reading_eq_ok_iff,
      Varint.pop_eq_ok_iff, Outcome.pure_eq_ok_iff, Prod.mk.injEq]
    cases primitive with
    | varint n => simp [encodePrimitive_varint_eq_write_iff, Primitive.Countable]
    | _ => simp [encodePrimitive]
  | text =>
    simp only [takePrimitive, Outcome.bind_eq_ok_iff, Prod.exists, takeText_eq_ok_iff,
      Outcome.pure_eq_ok_iff, Prod.mk.injEq]
    cases primitive with
    | text text => simp [encodePrimitive, Primitive.Countable, Emission.write_inj]
    | _ => simp [encodePrimitive]
  | bytes =>
    cases primitive with
    | bytes raw =>
      simp only [takePrimitive, encodePrimitive, Primitive.Countable, Emission.write_inj,
        Except.ok.injEq, Prod.mk.injEq, Primitive.bytes.injEq]
      constructor
      · rintro ⟨rfl, rfl⟩
        exact ⟨trivial, fun _ => rfl, bytes, rfl, (List.append_nil bytes).symm⟩
      · rintro ⟨_, ends, _, rfl, rfl⟩
        -- Raw bytes take in whatever follows, so nothing may.
        rw [ends trivial]
        exact ⟨List.append_nil raw, rfl⟩
    | _ => simp [takePrimitive, encodePrimitive]
  | bool =>
    cases primitive with
    | bool value =>
      -- The two accepted bytes are the two written ones.
      simp [takePrimitive_bool_eq_ok_iff, encodePrimitive, Primitive.Countable, Emission.write_inj]
    | _ =>
      cases bytes with
      | nil => simp [takePrimitive, encodePrimitive]
      | cons byte bytes =>
        simp only [takePrimitive, encodePrimitive]
        split
        · simp
        · split <;> simp

/-! ## Parts -/

/-- Elements are read like fields that all have one type. -/
theorem takeItems_eq_ok_iff {read : String → Bytes → Except CodecError Value} {element : String}
    {index count : Nat} {values : List Value} :
    takeItems (read element) type index count bytes = .ok (values, rest) ↔
      takeFields read type index (List.replicate count element) bytes = .ok (values, rest) := by
  induction count generalizing index bytes values rest with
  | zero => simp [takeItems, takeFields]
  | succ count ih =>
    simp only [List.replicate_succ, takeItems, takeFields, Outcome.bind_eq_ok_iff, Prod.exists,
      reading_eq_ok_iff, ih]

theorem takeFields_cons_eq_ok_iff {read : String → Bytes → Except CodecError Value}
    {field : String} {fields : List String} {index : Nat} {values : List Value} :
    takeFields read type index (field :: fields) bytes = .ok (values, rest) ↔
      ∃ piece back value later, piece.length < UInt64.size ∧
        bytes = Varint.prefixed piece ++ back ∧ read field piece = .ok value ∧
        takeFields read type (index + 1) fields back = .ok (later, rest) ∧
        values = value :: later := by
  simp only [takeFields, Outcome.bind_eq_ok_iff, Prod.exists, reading_eq_ok_iff,
    Varint.popPrefixed_eq_ok_iff, Outcome.pure_eq_ok_iff, Prod.mk.injEq]
  constructor
  · rintro ⟨piece, back, ⟨fits, rfl⟩, value, read, later, _, taken, rfl, rfl⟩
    exact ⟨piece, back, value, later, fits, rfl, read, taken, rfl⟩
  · rintro ⟨piece, back, value, later, fits, rfl, read, taken, rfl⟩
    exact ⟨piece, back, ⟨fits, rfl⟩, value, read, later, rest, taken, rfl, rfl⟩

/-! ## Values -/

theorem exactly_eq_ok_iff {read : Except CodecError (Value × Bytes)} {value : Value} :
    exactly type read = .ok value ↔ read = .ok (value, []) := by
  simp only [exactly, Outcome.bind_eq_ok_iff, Prod.exists]
  constructor
  · rintro ⟨found, rest, rfl, used⟩
    split at used
    · rename_i empty
      rw [Outcome.pure_eq_ok_iff.1 used, List.isEmpty_iff.1 empty]
    · exact absurd used (Outcome.throw_ne_ok _ _)
  · rintro rfl
    exact ⟨value, [], rfl, rfl⟩

def readPiece (codec : Codec) (room : Nat) (type : String) (piece : Bytes) :
    Except CodecError Value :=
  exactly type (takeAt codec room type piece)

theorem takeAt_eq_ok_iff {room : Nat} {value : Value} :
    takeAt codec (room + 1) expected bytes = .ok (value, rest) ↔
      ∃ word body actual definition path payload,
        (∃ bound, codec.types.find? expected = some bound) ∧
        bytes = Varint.encodeWord word ++ body ∧
        codec.identifiers.name? word.toNat = some actual ∧
        codec.types.find? actual = some definition ∧ definition.kind ≠ .enum ∧
        codec.types.casePath? expected actual = some path ∧
        takePayload (readPiece codec room) definition body = .ok (payload, rest) ∧
        value = payload.wrap path := by
  have definition_eq_ok_iff (name : String) (definition : Definition) :
      codec.definition name = .ok definition ↔ codec.types.find? name = some definition := by
    cases found : codec.types.find? name <;> simp [Codec.definition, found]
  simp only [takeAt, Outcome.bind_eq_ok_iff, Prod.exists, reading_eq_ok_iff,
    Varint.popWord_eq_ok_iff, definition_eq_ok_iff]
  constructor
  · rintro ⟨bound, known, word, body, rfl, read⟩
    split at read
    · exact absurd read (Outcome.throw_ne_ok _ _)
    · rename_i actual named
      simp only [Outcome.bind_eq_ok_iff, definition_eq_ok_iff] at read
      obtain ⟨definition, found, read⟩ := read
      split at read
      · exact absurd read (Outcome.throw_ne_ok _ _)
      · rename_i concrete
        split at read
        · exact absurd read (Outcome.throw_ne_ok _ _)
        · rename_i path reached
          simp only [Outcome.bind_eq_ok_iff, Prod.exists, Outcome.pure_eq_ok_iff,
            Prod.mk.injEq] at read
          obtain ⟨payload, _, taken, rfl, rfl⟩ := read
          exact ⟨word, body, actual, definition, path, payload, ⟨bound, known⟩, rfl, named, found,
            concrete, reached, taken, rfl⟩
  · rintro ⟨word, body, actual, definition, path, payload, ⟨bound, known⟩, rfl, named, found,
      concrete, reached, taken, rfl⟩
    refine ⟨bound, known, word, body, rfl, ?_⟩
    simp only [named, Outcome.bind_eq_ok_iff, definition_eq_ok_iff]
    refine ⟨definition, found, ?_⟩
    rw [if_neg concrete]
    simp only [reached, Outcome.bind_eq_ok_iff, Prod.exists]
    exact ⟨payload, rest, taken, rfl⟩

end Codec

end SchemaWire
