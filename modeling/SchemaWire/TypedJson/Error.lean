import SchemaWire.Decimal.Natural
import SchemaWire.Hex
import SchemaWire.Json.Basic
import SchemaWire.Schema.Definition
import SchemaWire.Text.Quoted

/-! Why JSON does not stand for a value of a type, or a value cannot be written as JSON of a type.
-/

set_option autoImplicit false

namespace SchemaWire

inductive JsonDemand where
  | null
  | array
  | object
  | numberOrDecimal
  | string
  | hexString
  | bool
  deriving DecidableEq, Repr

namespace JsonDemand

def text : JsonDemand → String
  | null => "null"
  | array => "array"
  | object => "object"
  | numberOrDecimal => "number or decimal string"
  | string => "string"
  | hexString => "hex string"
  | bool => "bool"

def ofRepresentation : Representation → JsonDemand
  | .varint => numberOrDecimal
  | .text => string
  | .bytes => hexString
  | .bool => bool

end JsonDemand

inductive JsonRefusal where
  | wrongForm (expected : JsonDemand) (found : Json.Form)
  | wrongKind (expected found : Kind)
  | wrongRepresentation (expected found : Representation)
  | wrongFieldCount (expected found : Nat)
  | notACase (case : String)
  | wrongCaseCount (found : Nat)
  | notNatural (number : Json.Number)
  | notDecimal (text : String) (cause : Decimal.Natural.Refusal)
  | notHex (cause : Hex.Refusal)
  deriving DecidableEq, Repr

def JsonRefusal.message : JsonRefusal → String
  | wrongForm expected found => s!"expected {expected.text}, found {found.word}"
  | wrongKind expected found => s!"expected {expected.keyword}, found {found.keyword}"
  | wrongRepresentation expected found => s!"expected {expected.keyword}, found {found.keyword}"
  | wrongFieldCount expected found => s!"expected {expected} fields, found {found}"
  | notACase case => s!"{case} is not a case"
  | wrongCaseCount found => s!"expected exactly one case key, found {found}"
  | notNatural number => s!"{number.text} is not a non-negative integer"
  | notDecimal text cause => s!"{Text.quotedString text}: {cause.message}"
  | notHex cause => cause.message

inductive JsonError where
  | unknownType (name : String)
  | refused (type : String) (cause : JsonRefusal)
  deriving DecidableEq, Repr

def JsonError.message : JsonError → String
  | unknownType name => s!"type {name} is not bound in the namespace"
  | refused type cause => s!"{type}: {cause.message}"

end SchemaWire
