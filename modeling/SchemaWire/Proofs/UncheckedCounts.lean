import SchemaWire.Proofs.DepthLimit

/-! The counts of lists and texts need no check of their own.

An announced count is compared with the bytes that are left before anything is read under it. Every
element stands behind a length and every character is a varint, so each takes a byte at least, and a
count that the check refuses runs out of input anyway. A reader without the checks accepts the same
bytes as the same values.
-/

set_option autoImplicit false

namespace SchemaWire

/-- A check in front of a computation that fails wherever the check does refuses nothing else. -/
theorem Outcome.ite_throw_eq_ok_iff {ε α : Type} {refused : Prop} [Decidable refused] {error : ε}
    {next : Except ε α} {a : α} (fails : refused → next ≠ .ok a) :
    (if refused then throw error else next) = .ok a ↔ next = .ok a := by
  split
  · rename_i refused
    exact iff_of_false (Outcome.throw_ne_ok error a) (fails refused)
  · exact Iff.rfl

namespace Codec

variable {codec : Codec} {room : Nat} {type expected : String} {bytes rest : Bytes}
  {read : String → Bytes → Except CodecError Value} {definition : Definition} {payload : Value}

/-! ## Counts beyond the input -/

theorem length_le_of_takeFields {index : Nat} {fields : List String} {values : List Value}
    (taken : takeFields read type index fields bytes = .ok (values, rest)) :
    fields.length ≤ bytes.length := by
  induction fields generalizing index bytes values with
  | nil => exact Nat.zero_le _
  | cons field fields ih =>
    obtain ⟨piece, back, value, later, fits, rfl, first, others, rfl⟩ :=
      takeFields_cons_eq_ok_iff.1 taken
    have fewer := ih others
    have positive := Varint.length_lt_length_prefixed piece
    rw [List.length_cons, List.length_append]
    omega

theorem takeItems_ne_ok {element : Bytes → Except CodecError Value} {index count : Nat}
    (beyond : bytes.length < count) (result : List Value × Bytes) :
    takeItems element type index count bytes ≠ .ok result := by
  intro taken
  obtain ⟨items, rest⟩ := result
  -- The elements are fields that all have one type, whichever that is.
  have fields : takeFields (fun _ => element) type index (List.replicate count type) bytes =
      .ok (items, rest) := takeItems_eq_ok_iff.1 taken
  have fewer := length_le_of_takeFields fields
  rw [List.length_replicate] at fewer
  exact absurd beyond (Nat.not_lt_of_le fewer)

theorem takeCharacters_ne_ok {count : Nat} (beyond : bytes.length < count)
    (result : List Char × Bytes) : takeCharacters type count bytes ≠ .ok result := by
  intro taken
  obtain ⟨rfl, rfl⟩ := takeCharacters_eq_ok_iff.1 taken
  have fewer := length_le_length_encodeCharacters result.1
  rw [List.length_append] at beyond
  omega

/-! ## Reading without the checks -/

def takeTextUnchecked (type : String) (bytes : Bytes) : Except CodecError (String × Bytes) := do
  let (count, bytes) ← reading type .malformedTextLength (Varint.popLength bytes)
  let (characters, bytes) ← takeCharacters type count bytes
  return (String.ofList characters, bytes)

def takePayloadUnchecked (read : String → Bytes → Except CodecError Value)
    (definition : Definition) (bytes : Bytes) : Except CodecError (Value × Bytes) :=
  let type := definition.name
  match definition.shape with
  | .builtin .text => do
    let (text, rest) ← takeTextUnchecked type bytes
    return (.builtin (.text text), rest)
  | .list element => do
    let (count, bytes) ← reading type .malformedCount (Varint.popLength bytes)
    let (items, rest) ← takeItems (read (element.resolve type)) type 0 count bytes
    return (.list items, rest)
  | _ => takePayload read definition bytes

def takeIdentified (codec : Codec)
    (payload : Definition → Bytes → Except CodecError (Value × Bytes)) (expected : String)
    (bytes : Bytes) : Except CodecError (Value × Bytes) := do
  let _ ← codec.definition expected
  let (word, bytes) ← reading expected .malformedIdentifier (Varint.popWord bytes)
  let identifier := word.toNat
  match codec.identifiers.name? identifier with
  | none => throw (.conversion expected (.unboundIdentifier identifier))
  | some actual =>
    let definition ← codec.definition actual
    if definition.kind = .enum then
      throw (.conversion expected (.enumIdentifier identifier actual))
    else
      match codec.types.casePath? expected actual with
      | none => throw (.conversion expected (.misplacedIdentifier identifier actual))
      | some path =>
        let (value, rest) ← payload definition bytes
        return (value.wrap path, rest)

theorem takeAt_succ :
    takeAt codec (room + 1) expected bytes =
      takeIdentified codec (takePayload (readPiece codec room)) expected bytes :=
  rfl

/-- Read a value as usual, but for the checks on counts. -/
def takeUnchecked (codec : Codec) : Nat → String → Bytes → Except CodecError (Value × Bytes)
  | 0, expected, _ => .error (.conversion expected (.tooDeep codec.maxDepth))
  | inner + 1, expected, bytes =>
    let read := fun type piece => exactly type (takeUnchecked codec inner type piece)
    takeIdentified codec (takePayloadUnchecked read) expected bytes

def decodeUnchecked (codec : Codec) (expected : String) (bytes : Bytes) : Except CodecError Value :=
  exactly expected (takeUnchecked codec (codec.maxDepth + 1) expected bytes)

/-! ## The same values -/

theorem takeTextUnchecked_eq_ok_iff {result : String × Bytes} :
    takeTextUnchecked type bytes = .ok result ↔ takeText type bytes = .ok result := by
  simp only [takeTextUnchecked, takeText, Outcome.bind_eq_ok_iff, Prod.exists]
  refine exists_congr fun count => exists_congr fun back => and_congr_right fun _ => ?_
  symm
  rw [Outcome.ite_throw_eq_ok_iff]
  · simp only [Outcome.bind_eq_ok_iff, Prod.exists]
  · intro beyond read
    obtain ⟨characters, taken, -⟩ := Outcome.bind_eq_ok_iff.1 read
    exact takeCharacters_ne_ok beyond characters taken

theorem takePayloadUnchecked_eq_ok_iff {result : Value × Bytes} :
    takePayloadUnchecked read definition bytes = .ok result ↔
      takePayload read definition bytes = .ok result := by
  simp only [takePayloadUnchecked, takePayload]
  cases shape : definition.shape with
  | builtin representation =>
    cases representation with
    | text =>
      simp only [takePrimitive, Outcome.bind_eq_ok_iff, Prod.exists, takeTextUnchecked_eq_ok_iff,
        Outcome.pure_eq_ok_iff]
      constructor
      · rintro ⟨text, back, taken, rfl⟩
        exact ⟨_, back, ⟨text, back, taken, rfl⟩, rfl⟩
      · rintro ⟨_, _, ⟨text, back, taken, same⟩, rfl⟩
        cases same
        exact ⟨text, _, taken, rfl⟩
    | _ => rfl
  | list element =>
    simp only [Outcome.bind_eq_ok_iff, Prod.exists]
    refine exists_congr fun count => exists_congr fun back => and_congr_right fun _ => ?_
    symm
    rw [Outcome.ite_throw_eq_ok_iff]
    · simp only [Outcome.bind_eq_ok_iff, Prod.exists]
    · intro beyond read
      obtain ⟨items, taken, -⟩ := Outcome.bind_eq_ok_iff.1 read
      exact takeItems_ne_ok beyond items taken
  | _ => rfl

theorem takeIdentified_congr {first second : Definition → Bytes → Except CodecError (Value × Bytes)}
    (same : ∀ definition bytes result,
      first definition bytes = .ok result ↔ second definition bytes = .ok result)
    {result : Value × Bytes} :
    takeIdentified codec first expected bytes = .ok result ↔
      takeIdentified codec second expected bytes = .ok result := by
  simp only [takeIdentified, Outcome.bind_eq_ok_iff, Prod.exists]
  refine exists_congr fun _ => and_congr_right fun _ => ?_
  refine exists_congr fun word => exists_congr fun back => and_congr_right fun _ => ?_
  split
  · exact Iff.rfl
  · simp only [Outcome.bind_eq_ok_iff]
    refine exists_congr fun definition => and_congr_right fun _ => ?_
    split
    · exact Iff.rfl
    · split
      · exact Iff.rfl
      · simp only [Outcome.bind_eq_ok_iff, same]

theorem takeUnchecked_eq_ok_iff {result : Value × Bytes} :
    takeUnchecked codec room expected bytes = .ok result ↔
      takeAt codec room expected bytes = .ok result := by
  induction room generalizing expected bytes result with
  | zero => exact Iff.rfl
  | succ room ih =>
    rw [takeUnchecked, takeAt_succ]
    refine takeIdentified_congr fun definition bytes result => ?_
    have pieces (type : String) (piece : Bytes) (value : Value) :
        exactly type (takeUnchecked codec room type piece) = .ok value ↔
          readPiece codec room type piece = .ok value := by
      rw [readPiece, exactly_eq_ok_iff, exactly_eq_ok_iff, ih]
    rw [takePayloadUnchecked_eq_ok_iff]
    exact ⟨takePayload_of_parts fun part _ _ _ _ => (pieces _ _ part).1,
      takePayload_of_parts fun part _ _ _ _ => (pieces _ _ part).2⟩

theorem decodeUnchecked_eq_ok_iff {value : Value} :
    decodeUnchecked codec type bytes = .ok value ↔ codec.decode type bytes = .ok value := by
  rw [decodeUnchecked, decode, take, exactly_eq_ok_iff, exactly_eq_ok_iff, takeUnchecked_eq_ok_iff]

end Codec

end SchemaWire
