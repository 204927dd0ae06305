import SchemaWire.Codec.Basic
import SchemaWire.Schema.Text
import SchemaWire.Stream.Error

/-! Compiled schemas: namespaces in which every reference is bound. -/

set_option autoImplicit false

namespace SchemaWire

inductive CompileError where
  | unreadable (path : String) (cause : IoError)
  | parse (cause : ParseError)
  | binding (cause : NamespaceError)
  deriving DecidableEq

def CompileError.message : CompileError → String
  | unreadable path cause => s!"failed to read {path}: {cause.text}"
  | parse cause => cause.message
  | binding cause => cause.message

structure Schema where
  types : Namespace
  valid : types.validate = .ok ()

namespace Schema

def identifiers (schema : Schema) : IdentifierTable := IdentifierTable.assign schema.types

def codec (schema : Schema) : Codec := Codec.ofNamespace schema.types

def ofNamespace (types : Namespace) : Except NamespaceError Schema :=
  match valid : types.validate with
  | .ok () => .ok ⟨types, valid⟩
  | .error cause => .error cause

def compile (text : String) : Except CompileError Schema := do
  let definitions ← (SchemaText.parse text).mapError .parse
  let types ← (Namespace.build definitions).mapError .binding
  (ofNamespace types).mapError .binding

def compileFile (path : String) (contents : Except IoError String) :
    Except CompileError Schema := do
  let text ← contents.mapError (.unreadable path)
  compile text

end Schema

end SchemaWire
