import SchemaWire.Hex
import SchemaWire.Schema.Definition
import SchemaWire.Varint

/-! Why a value cannot be encoded or bytes cannot be decoded. -/

set_option autoImplicit false

namespace SchemaWire

inductive CodecRefusal where
  | varint (cause : Varint.Refusal)
  | tooDeep (limit : Nat)
  | wrongKind (found expected : Kind)
  | wrongFieldCount (expected found : Nat)
  | wrongRepresentation (expected found : Representation)
  | notACase (case type : String)
  | trailing (count : Nat)
  | malformedIdentifier
  | unboundIdentifier (identifier : Nat)
  | enumIdentifier (identifier : Nat) (name : String)
  | misplacedIdentifier (identifier : Nat) (name : String)
  | enumPayload
  | truncatedField (index : Nat)
  | malformedCount
  | countBeyond (count remaining : Nat)
  | truncatedElement (index : Nat)
  | malformedVarint
  | malformedTextLength
  | textBeyond (length remaining : Nat)
  | truncatedText
  | notScalar (codePoint : Nat)
  | missingBool
  | invalidBool (byte : UInt8)
  deriving DecidableEq, Repr

def CodecRefusal.message : CodecRefusal → String
  | varint cause => cause.message
  | tooDeep limit => s!"nesting deeper than {limit}"
  | wrongKind found expected => s!"cannot encode a {found.keyword} value as a {expected.keyword}"
  | wrongFieldCount expected found => s!"expected {expected} fields, found {found}"
  | wrongRepresentation expected found => s!"expected {expected.keyword}, found {found.keyword}"
  | notACase case type => s!"{case} is not a case of {type}"
  | trailing count => s!"{count} trailing bytes"
  | malformedIdentifier => "malformed identifier"
  | unboundIdentifier identifier => s!"identifier {identifier} is not bound"
  | enumIdentifier identifier name =>
    s!"identifier {identifier} names enum {name}, which is never written"
  | misplacedIdentifier identifier name => s!"identifier {identifier} ({name}) is not valid here"
  | enumPayload => "an enum has no payload of its own"
  | truncatedField index => s!"field {index} is truncated"
  | malformedCount => "malformed element count"
  | countBeyond count remaining => s!"element count {count} exceeds remaining {remaining} bytes"
  | truncatedElement index => s!"element {index} is truncated"
  | malformedVarint => "malformed varint"
  | malformedTextLength => "malformed text length"
  | textBeyond length remaining => s!"text length {length} exceeds remaining {remaining} bytes"
  | truncatedText => "truncated text"
  | notScalar codePoint => s!"0x{Numeral.hex codePoint} is not a unicode scalar value"
  | missingBool => "missing bool byte"
  | invalidBool byte => "invalid bool byte 0x" ++ Hex.encode [byte]

inductive CodecError where
  | conversion (type : String) (cause : CodecRefusal)
  | countTooBig (length : Nat)
  | unknownType (name : String)
  deriving DecidableEq, Repr

namespace CodecError

def message : CodecError → String
  | conversion type cause => s!"conversion failed for {type}: {cause.message}"
  | countTooBig length => s!"count too big ({length} bytes, max {Varint.maxLength})"
  | unknownType name => s!"type {name} is not bound in the namespace"

/-- A varint read by itself is converted as the type `Varint`. -/
def ofVarint (cause : Varint.Refusal) : CodecError := .conversion "Varint" (.varint cause)

def ofTooLong (number : Varint.TooLong) : CodecError := .countTooBig number.length

end CodecError

end SchemaWire
