import SchemaWire.Codec.CasePath
import SchemaWire.Codec.Error
import SchemaWire.Schema.IdentifierTable

/-! A codec: the types it knows, the numbers that stand for them, and how deep values may nest.

The table need not come from the same namespace. A type without a number in the table cannot be
written, and a number whose name the namespace does not bind cannot be read.
-/

set_option autoImplicit false

namespace SchemaWire

structure Codec where
  types : Namespace
  identifiers : IdentifierTable
  maxDepth : Nat

namespace Codec

def defaultMaxDepth : Nat := 128

def ofNamespace (types : Namespace) : Codec :=
  ⟨types, IdentifierTable.assign types, defaultMaxDepth⟩

def identifier (codec : Codec) (type : String) : Except CodecError Identifier :=
  match codec.identifiers.identifier? type with
  | some identifier => .ok identifier
  | none => .error (.unknownType type)

def definition (codec : Codec) (type : String) : Except CodecError Definition :=
  match codec.types.find? type with
  | some definition => .ok definition
  | none => .error (.unknownType type)

end Codec

end SchemaWire
