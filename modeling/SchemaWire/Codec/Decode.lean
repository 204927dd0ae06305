import SchemaWire.Codec.Basic
import SchemaWire.Value

/-! Reading values.

Reading is strict: the identifier must name a concrete type that is the expected one or a case of
it, and a field, an element or a whole message must be used up to its last byte.
-/

set_option autoImplicit false

namespace SchemaWire.Codec

def reading {α : Type} (type : String) (cause : CodecRefusal) (read : Except Varint.Refusal α) :
    Except CodecError α :=
  read.mapError fun _ => .conversion type cause

/-- The character with a code point, unless the code point is a surrogate or too large. -/
def scalar? (codePoint : Nat) : Option Char :=
  if valid : codePoint.isValidChar then some (Char.ofNatAux codePoint valid) else none

def takeCharacters (type : String) : Nat → Bytes → Except CodecError (List Char × Bytes)
  | 0, bytes => .ok ([], bytes)
  | count + 1, bytes => do
    let (codePoint, bytes) ← reading type .truncatedText (Varint.popWord bytes)
    match scalar? codePoint.toNat with
    | none => throw (.conversion type (.notScalar codePoint.toNat))
    | some c =>
      let (later, bytes) ← takeCharacters type count bytes
      return (c :: later, bytes)

def takeText (type : String) (bytes : Bytes) : Except CodecError (String × Bytes) := do
  let (count, bytes) ← reading type .malformedTextLength (Varint.popLength bytes)
  -- Every character takes at least a byte, so none is read under a count beyond the input.
  if count > bytes.length then throw (.conversion type (.textBeyond count bytes.length))
  else
    let (characters, bytes) ← takeCharacters type count bytes
    return (String.ofList characters, bytes)

/-- Read a primitive. Raw bytes run to the end of the input. -/
def takePrimitive (type : String) (representation : Representation) (bytes : Bytes) :
    Except CodecError (Primitive × Bytes) :=
  match representation with
  | .varint => do
    let (n, rest) ← reading type .malformedVarint (Varint.pop bytes)
    return (.varint n, rest)
  | .text => do
    let (text, rest) ← takeText type bytes
    return (.text text, rest)
  | .bytes => .ok (.bytes bytes, [])
  | .bool =>
    match bytes with
    | [] => .error (.conversion type .missingBool)
    | byte :: rest =>
      if byte = 0 then .ok (.bool false, rest)
      else if byte = 1 then .ok (.bool true, rest)
      else .error (.conversion type (.invalidBool byte))

def takeFields (read : String → Bytes → Except CodecError Value) (type : String) :
    Nat → List String → Bytes → Except CodecError (List Value × Bytes)
  | _, [], bytes => .ok ([], bytes)
  | index, field :: fields, bytes => do
    let (piece, bytes) ← reading type (.truncatedField index) (Varint.popPrefixed bytes)
    let value ← read field piece
    let (values, bytes) ← takeFields read type (index + 1) fields bytes
    return (value :: values, bytes)

def takeItems (read : Bytes → Except CodecError Value) (type : String) :
    (index count : Nat) → Bytes → Except CodecError (List Value × Bytes)
  | _, 0, bytes => .ok ([], bytes)
  | index, count + 1, bytes => do
    let (piece, bytes) ← reading type (.truncatedElement index) (Varint.popPrefixed bytes)
    let value ← read piece
    let (values, bytes) ← takeItems read type (index + 1) count bytes
    return (value :: values, bytes)

def takePayload (read : String → Bytes → Except CodecError Value) (definition : Definition)
    (bytes : Bytes) : Except CodecError (Value × Bytes) :=
  let type := definition.name
  match definition.shape with
  | .singleton => .ok (.singleton, bytes)
  | .builtin representation => do
    let (primitive, rest) ← takePrimitive type representation bytes
    return (.builtin primitive, rest)
  | .record fields => do
    let (values, rest) ← takeFields read type 0 (fields.map (·.resolve type)) bytes
    return (.record values, rest)
  | .list element => do
    let (count, bytes) ← reading type .malformedCount (Varint.popLength bytes)
    -- Every element takes at least a byte as well.
    if count > bytes.length then throw (.conversion type (.countBeyond count bytes.length))
    else
      let (items, rest) ← takeItems (read (element.resolve type)) type 0 count bytes
      return (.list items, rest)
  | .enum _ => .error (.conversion type .enumPayload)

def exactly (type : String) (read : Except CodecError (Value × Bytes)) :
    Except CodecError Value := do
  let (value, rest) ← read
  if rest.isEmpty then return value else throw (.conversion type (.trailing rest.length))

/-- Read a value of a type off the front, with `room` more levels of nesting allowed, this one
included. -/
def takeAt (codec : Codec) : Nat → String → Bytes → Except CodecError (Value × Bytes)
  | 0, expected, _ => .error (.conversion expected (.tooDeep codec.maxDepth))
  | inner + 1, expected, bytes => do
    let _ ← codec.definition expected
    let (word, bytes) ← reading expected .malformedIdentifier (Varint.popWord bytes)
    let identifier := word.toNat
    match codec.identifiers.name? identifier with
    | none => throw (.conversion expected (.unboundIdentifier identifier))
    | some actual =>
      let definition ← codec.definition actual
      if definition.kind = .enum then
        throw (.conversion expected (.enumIdentifier identifier actual))
      else
        match codec.types.casePath? expected actual with
        | none => throw (.conversion expected (.misplacedIdentifier identifier actual))
        | some path =>
          let read := fun type piece => exactly type (takeAt codec inner type piece)
          let (value, rest) ← takePayload read definition bytes
          return (value.wrap path, rest)

def take (codec : Codec) (expected : String) (bytes : Bytes) : Except CodecError (Value × Bytes) :=
  codec.takeAt (codec.maxDepth + 1) expected bytes

def decode (codec : Codec) (expected : String) (bytes : Bytes) : Except CodecError Value :=
  exactly expected (codec.take expected bytes)

end SchemaWire.Codec
