import SchemaWire.Codec.Basic
import SchemaWire.Value

/-! Writing values.

A value is written as the identifier of its type and a payload that depends on the kind: nothing for
a singleton, the fields behind their lengths for a record, a count and then the elements behind
their lengths for a list. Of an enum only the active case is written.
-/

set_option autoImplicit false

namespace SchemaWire

/-- What a writing step leaves behind: the bytes it appended, which stay when it fails. -/
structure Emission where
  written : Bytes
  outcome : Except CodecError Unit

namespace Emission

def write (bytes : Bytes) : Emission := ⟨bytes, .ok ()⟩

def fail (error : CodecError) : Emission := ⟨[], .error error⟩

def andThen (first : Emission) (next : Unit → Emission) : Emission :=
  match first.outcome with
  | .ok () =>
    let second := next ()
    ⟨first.written ++ second.written, second.outcome⟩
  | .error _ => first

/-- What was written, behind its length. A failed part is left out altogether. -/
def prefixed (part : Emission) : Emission :=
  match part.outcome with
  | .ok () => write (Varint.prefixed part.written)
  | .error error => fail error

def result (emission : Emission) : Except CodecError Bytes :=
  emission.outcome.map fun () => emission.written

end Emission

namespace Codec

def encodeText (text : String) : Bytes :=
  let characters := text.toList
  Varint.encodeWord (UInt64.ofNat characters.length) ++
    characters.flatMap fun c => Varint.encodeWord (UInt64.ofNat c.toNat)

def encodePrimitive (type : String) (representation : Representation) (primitive : Primitive) :
    Emission :=
  match representation, primitive with
  | .varint, .varint n =>
    match Varint.encode n with
    | .ok bytes => .write bytes
    | .error number => .fail (.ofTooLong number)
  | .text, .text text => .write (encodeText text)
  | .bytes, .bytes bytes => .write bytes
  | .bool, .bool value => .write [if value then 1 else 0]
  | _, _ => .fail (.conversion type (.wrongRepresentation representation primitive.representation))

def encodeIdentifier (codec : Codec) (type : String) : Emission :=
  match codec.identifier type with
  | .ok identifier => .write (Varint.encodeWord (UInt64.ofNat identifier))
  | .error error => .fail error

def wrongKind (definition : Definition) (value : Value) : Emission :=
  .fail (.conversion definition.name (.wrongKind value.kind definition.kind))

mutual

def encodeAt (codec : Codec) (room : Nat) (type : String) (value : Value) : Emission :=
  match room with
  | 0 => .fail (.conversion type (.tooDeep codec.maxDepth))
  | inner + 1 =>
    match codec.definition type with
    | .error error => .fail error
    | .ok definition =>
      match definition.shape, value with
      | .enum _, .enum case payload =>
        if definition.resolvedReferences.contains case then encodeAt codec (inner + 1) case payload
        else .fail (.conversion definition.name (.notACase case definition.name))
      | .enum _, value => wrongKind definition value
      | .singleton, .singleton => encodeIdentifier codec type
      | .builtin representation, .builtin primitive =>
        (encodeIdentifier codec type).andThen fun () =>
          encodePrimitive definition.name representation primitive
      | .record fields, .record values =>
        (encodeIdentifier codec type).andThen fun () =>
          if fields.length = values.length then
            encodeFields codec inner (fields.map (·.resolve definition.name)) values
          else
            .fail (.conversion definition.name (.wrongFieldCount fields.length values.length))
      | .list element, .list items =>
        (encodeIdentifier codec type).andThen fun () =>
          (Emission.write (Varint.encodeWord (UInt64.ofNat items.length))).andThen fun () =>
            encodeItems codec inner (element.resolve definition.name) items
      | _, value => (encodeIdentifier codec type).andThen fun () => wrongKind definition value
termination_by structural value

def encodeFields (codec : Codec) (room : Nat) (types : List String) (values : List Value) :
    Emission :=
  match values, types with
  | value :: values, type :: types =>
    (encodeAt codec room type value).prefixed.andThen fun () =>
      encodeFields codec room types values
  | _, _ => .write []
termination_by structural values

def encodeItems (codec : Codec) (room : Nat) (type : String) (values : List Value) : Emission :=
  match values with
  | [] => .write []
  | value :: values =>
    (encodeAt codec room type value).prefixed.andThen fun () => encodeItems codec room type values
termination_by structural values

end

def emit (codec : Codec) (type : String) (value : Value) : Emission :=
  codec.encodeAt (codec.maxDepth + 1) type value

def encode (codec : Codec) (type : String) (value : Value) : Except CodecError Bytes :=
  (codec.emit type value).result

end Codec

end SchemaWire
