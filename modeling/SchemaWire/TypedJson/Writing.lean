import SchemaWire.Schema.Namespace
import SchemaWire.TypedJson.Error
import SchemaWire.Value

/-! Values as JSON.

The JSON of a value reads back as the same value. A number is a JSON number as long as it fits a
machine word, and a string of decimal digits otherwise.
-/

set_option autoImplicit false

namespace SchemaWire

def Primitive.toJson : Primitive → Json
  | varint n =>
    if n < UInt64.size then .number (.natural (UInt64.ofNat n)) else .string (Numeral.decimal n)
  | text content => .string content
  | bytes content => .string (Hex.encode content)
  | bool value => .bool value

namespace Namespace

mutual

def jsonOfValue (types : Namespace) (type : String) (value : Value) : Except JsonError Json :=
  match types.find? type with
  | none => .error (.unknownType type)
  | some definition =>
    let refuse (cause : JsonRefusal) : Except JsonError Json :=
      .error (.refused definition.name cause)
    match definition.shape, value with
    | .singleton, .singleton => .ok .null
    | .record fields, .record values =>
      if values.length = fields.length then do
        let items ← jsonOfFields types (fields.map (·.resolve definition.name)) values
        return .array items
      else refuse (.wrongFieldCount fields.length values.length)
    | .list element, .list values => do
      let items ← jsonOfItems types (element.resolve definition.name) values
      return .array items
    | .enum _, .enum case inner =>
      if definition.resolvedReferences.contains case then do
        let json ← jsonOfValue types case inner
        return .object [(case, json)]
      else refuse (.notACase case)
    | .builtin representation, .builtin primitive =>
      if representation = primitive.representation then .ok primitive.toJson
      else refuse (.wrongRepresentation representation primitive.representation)
    | shape, value => refuse (.wrongKind shape.kind value.kind)
termination_by structural value

def jsonOfFields (types : Namespace) (fields : List String) (values : List Value) :
    Except JsonError (List Json) :=
  match values, fields with
  | value :: values, field :: fields => do
    let item ← jsonOfValue types field value
    let items ← jsonOfFields types fields values
    return item :: items
  | _, _ => .ok []
termination_by structural values

def jsonOfItems (types : Namespace) (element : String) (values : List Value) :
    Except JsonError (List Json) :=
  match values with
  | [] => .ok []
  | value :: values => do
    let item ← jsonOfValue types element value
    let items ← jsonOfItems types element values
    return item :: items
termination_by structural values

end

end Namespace

end SchemaWire
