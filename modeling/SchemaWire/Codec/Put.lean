import SchemaWire.Codec.Encode

/-! Writing values behind what a buffer holds already.

The length of a part stands in front of it, so parts are written to a scratch buffer first. All parts
of a value take the same one, which is emptied before each of them.
-/

set_option autoImplicit false

namespace SchemaWire

/-- A step that changes a buffer. What it has done to the buffer remains when it fails. -/
abbrev Put (α : Type) := ExceptT CodecError (StateM Bytes) α

namespace Put

def onto {α : Type} (step : Put α) (buffer : Bytes) : Except CodecError α × Bytes :=
  step.run.run buffer

def clear : Put Unit := set ([] : Bytes)

def bytes (more : Bytes) : Put Unit := modify (· ++ more)

def word (word : UInt64) : Put Unit := modify (Varint.putWord word)

def varint (n : Nat) : Put Unit :=
  ExceptT.mk fun buffer =>
    let (outcome, buffer) := Varint.put n buffer
    (outcome.mapError .ofTooLong, buffer)

def text (text : String) : Put Unit := do
  let characters := text.toList
  word (UInt64.ofNat characters.length)
  characters.forM fun c => word (UInt64.ofNat c.toNat)

def prefixed (payload : Bytes) : Put Unit := do
  word (UInt64.ofNat payload.length)
  bytes payload

def aside (step : Put Unit) (scratch : Bytes) : Put Bytes :=
  match step.onto scratch with
  | (.ok (), scratch) => return scratch
  | (.error error, _) => throw error

end Put

namespace Codec

def putPrimitive (type : String) (representation : Representation) (primitive : Primitive) :
    Put Unit :=
  match representation, primitive with
  | .varint, .varint n => Put.varint n
  | .text, .text text => Put.text text
  | .bytes, .bytes bytes => Put.bytes bytes
  | .bool, .bool value => Put.bytes [if value then 1 else 0]
  | _, _ => throw (.conversion type (.wrongRepresentation representation primitive.representation))

def putIdentifier (codec : Codec) (type : String) : Put Unit := do
  let identifier ← liftM (codec.identifier type)
  Put.word (UInt64.ofNat identifier)

def mismatch (definition : Definition) (value : Value) : Put Unit :=
  throw (.conversion definition.name (.wrongKind value.kind definition.kind))

mutual

def putAt (codec : Codec) (room : Nat) (type : String) (value : Value) : Put Unit :=
  match room with
  | 0 => throw (.conversion type (.tooDeep codec.maxDepth))
  | inner + 1 =>
    match codec.definition type with
    | .error error => throw error
    | .ok definition =>
      match definition.shape, value with
      | .enum _, .enum case payload =>
        if definition.resolvedReferences.contains case then putAt codec (inner + 1) case payload
        else throw (.conversion definition.name (.notACase case definition.name))
      | .enum _, value => mismatch definition value
      | .singleton, .singleton => putIdentifier codec type
      | .builtin representation, .builtin primitive => do
        putIdentifier codec type
        putPrimitive definition.name representation primitive
      | .record fields, .record values => do
        putIdentifier codec type
        if fields.length = values.length then
          putFields codec inner (fields.map (·.resolve definition.name)) values []
        else throw (.conversion definition.name (.wrongFieldCount fields.length values.length))
      | .list element, .list items => do
        putIdentifier codec type
        Put.word (UInt64.ofNat items.length)
        putItems codec inner (element.resolve definition.name) items []
      | _, value => do
        putIdentifier codec type
        mismatch definition value
termination_by structural value

/-- Write parts behind their lengths, each by way of the scratch buffer. -/
def putFields (codec : Codec) (room : Nat) (types : List String) (values : List Value)
    (scratch : Bytes) : Put Unit :=
  match values, types with
  | value :: values, type :: types => do
    let scratch ← Put.aside (do Put.clear; putAt codec room type value) scratch
    Put.prefixed scratch
    putFields codec room types values scratch
  | _, _ => return ()
termination_by structural values

def putItems (codec : Codec) (room : Nat) (type : String) (values : List Value) (scratch : Bytes) :
    Put Unit :=
  match values with
  | [] => return ()
  | value :: values => do
    let scratch ← Put.aside (do Put.clear; putAt codec room type value) scratch
    Put.prefixed scratch
    putItems codec room type values scratch
termination_by structural values

end

def encodeInto (codec : Codec) (type : String) (value : Value) (buffer : Bytes) :
    Except CodecError Unit × Bytes :=
  (putAt codec (codec.maxDepth + 1) type value).onto buffer

end Codec

end SchemaWire
