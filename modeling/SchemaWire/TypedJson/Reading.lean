import SchemaWire.Schema.Namespace
import SchemaWire.TypedJson.Error
import SchemaWire.Value

/-! Values from JSON.

The type decides how JSON is read. A singleton is `null`, a record or a list is an array, and an
enum is an object whose only key is the active case. A number of any size is a JSON number or a
string of decimal digits, and bytes are a string of hexadecimal digits.
-/

set_option autoImplicit false

namespace SchemaWire

def Primitive.ofJson (representation : Representation) (json : Json) :
    Except JsonRefusal Primitive :=
  match representation, json with
  | .varint, .number (.natural n) => .ok (.varint n.toNat)
  | .varint, .number n => .error (.notNatural n)
  | .varint, .string digits =>
    match Decimal.Natural.read digits.toList with
    | .ok n => .ok (.varint n)
    | .error cause => .error (.notDecimal digits cause)
  | .text, .string content => .ok (.text content)
  | .bytes, .string digits =>
    match Hex.decode digits with
    | .ok content => .ok (.bytes content)
    | .error cause => .error (.notHex cause)
  | .bool, .bool value => .ok (.bool value)
  | representation, json => .error (.wrongForm (.ofRepresentation representation) json.form)

namespace Namespace

mutual

def valueOfJson (types : Namespace) (type : String) (json : Json) : Except JsonError Value :=
  match types.find? type with
  | none => .error (.unknownType type)
  | some definition =>
    let refuse (cause : JsonRefusal) : Except JsonError Value :=
      .error (.refused definition.name cause)
    match definition.shape, json with
    | .singleton, .null => .ok .singleton
    | .singleton, json => refuse (.wrongForm .null json.form)
    | .record fields, .array items =>
      if items.length = fields.length then do
        let values ← fieldsOfJson types (fields.map (·.resolve definition.name)) items
        return .record values
      else refuse (.wrongFieldCount fields.length items.length)
    | .record _, json => refuse (.wrongForm .array json.form)
    | .list element, .array items => do
      let values ← itemsOfJson types (element.resolve definition.name) items
      return .list values
    | .list _, json => refuse (.wrongForm .array json.form)
    | .enum _, .object [(case, inner)] =>
      if definition.resolvedReferences.contains case then do
        let value ← valueOfJson types case inner
        return .enum case value
      else refuse (.notACase case)
    | .enum _, .object members => refuse (.wrongCaseCount members.length)
    | .enum _, json => refuse (.wrongForm .object json.form)
    | .builtin representation, json =>
      match Primitive.ofJson representation json with
      | .ok primitive => .ok (.builtin primitive)
      | .error cause => refuse cause
termination_by structural json

def fieldsOfJson (types : Namespace) (fields : List String) (items : List Json) :
    Except JsonError (List Value) :=
  match items, fields with
  | item :: items, field :: fields => do
    let value ← valueOfJson types field item
    let values ← fieldsOfJson types fields items
    return value :: values
  | _, _ => .ok []
termination_by structural items

def itemsOfJson (types : Namespace) (element : String) (items : List Json) :
    Except JsonError (List Value) :=
  match items with
  | [] => .ok []
  | item :: items => do
    let value ← valueOfJson types element item
    let values ← itemsOfJson types element items
    return value :: values
termination_by structural items

end

end Namespace

end SchemaWire
