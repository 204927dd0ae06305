/-! Type definitions and their one-line text.

A definition has a name and a shape. It refers to other types by name, so recursive types need no
knot; the self reference stands for the name of the definition it occurs in.
-/

set_option autoImplicit false

namespace SchemaWire

inductive Kind where
  | singleton
  | record
  | enum
  | list
  | builtin
  deriving DecidableEq, Repr

namespace Kind

def keyword : Kind → String
  | singleton => "Singleton"
  | record => "Record"
  | enum => "Enum"
  | list => "List"
  | builtin => "Builtin"

def all : List Kind := [singleton, record, enum, list, builtin]

def ofKeyword? (word : String) : Option Kind := all.find? (·.keyword == word)

@[simp] theorem ofKeyword?_keyword (kind : Kind) : ofKeyword? kind.keyword = some kind := by
  cases kind <;> rfl

end Kind

inductive Arity where
  | none
  | atLeastOne
  | exactlyOne
  deriving DecidableEq, Repr

def Kind.arity : Kind → Arity
  | singleton => .none
  | record | enum => .atLeastOne
  | list | builtin => .exactlyOne

namespace Arity

def admits : Arity → Nat → Bool
  | none, count => count == 0
  | atLeastOne, count => 1 ≤ count
  | exactlyOne, count => count == 1

def text : Arity → String
  | none => "no arguments"
  | atLeastOne => "at least one argument"
  | exactlyOne => "exactly one argument"

end Arity

/-- The primitive encodings: a natural number of any size, text by code points, bytes as they are,
and a single byte that is zero or one. -/
inductive Representation where
  | varint
  | text
  | bytes
  | bool
  deriving DecidableEq, Repr

namespace Representation

def keyword : Representation → String
  | varint => "Varint"
  | text => "Text"
  | bytes => "Bytes"
  | bool => "Bool"

def all : List Representation := [varint, text, bytes, bool]

def ofKeyword? (word : String) : Option Representation := all.find? (·.keyword == word)

@[simp] theorem ofKeyword?_keyword (representation : Representation) :
    ofKeyword? representation.keyword = some representation := by
  cases representation <;> rfl

end Representation

inductive TypeRef where
  | named (name : String)
  | self
  deriving DecidableEq, Repr

namespace TypeRef

/-- The argument word that refers to the definition it occurs in. No type may have this name. -/
def selfWord : String := "This"

def ofWord (word : String) : TypeRef := if word = selfWord then .self else .named word

def text : TypeRef → String
  | named name => name
  | self => selfWord

def resolve (enclosing : String) : TypeRef → String
  | named name => name
  | self => enclosing

end TypeRef

inductive Shape where
  | singleton
  | record (fields : List TypeRef)
  | enum (cases : List TypeRef)
  | list (element : TypeRef)
  | builtin (representation : Representation)
  deriving DecidableEq, Repr

namespace Shape

def kind : Shape → Kind
  | singleton => .singleton
  | record _ => .record
  | enum _ => .enum
  | list _ => .list
  | builtin _ => .builtin

def references : Shape → List TypeRef
  | record fields => fields
  | enum cases => cases
  | list element => [element]
  | singleton | builtin _ => []

def arguments : Shape → List String
  | builtin representation => [representation.keyword]
  | shape => shape.references.map TypeRef.text

end Shape

structure Definition where
  name : String
  shape : Shape
  deriving DecidableEq, Repr

namespace Definition

def kind (definition : Definition) : Kind := definition.shape.kind

def references (definition : Definition) : List TypeRef := definition.shape.references

def resolvedReferences (definition : Definition) : List String :=
  definition.references.map (·.resolve definition.name)

def words (definition : Definition) : List String :=
  (definition.name ++ ":") :: definition.kind.keyword :: definition.shape.arguments

def text (definition : Definition) : String := " ".intercalate definition.words

end Definition

end SchemaWire
