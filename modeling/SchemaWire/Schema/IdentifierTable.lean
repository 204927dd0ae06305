import SchemaWire.Schema.Namespace

/-! Wire identifiers: the numbers that stand for type names in encoded data.

The numbers below six are reserved. The bound names of a namespace are numbered from six upwards in
ascending order. A table holds them twice: as a list, in which a number says where its name stands,
and as a map from the names to their numbers.
-/

set_option autoImplicit false

namespace SchemaWire

abbrev Identifier := Nat

namespace Identifier

def first : Identifier := 6

def isReserved (identifier : Identifier) : Bool := identifier < first

def reservedName? (identifier : Identifier) : Option String :=
  if identifier = 1 then some "Singleton"
  else if isReserved identifier then some "RESERVED"
  else none

end Identifier

structure IdentifierTable where
  names : List String
  /-- The map, in no particular order. -/
  byName : List (String × Identifier)
  ascending : names.Pairwise (· < ·)
  numbered : byName.Perm (names.zipIdx Identifier.first)
  deriving DecidableEq

namespace IdentifierTable

def assign (types : Namespace) : IdentifierTable where
  names := types.names
  byName := types.names.zipIdx Identifier.first
  ascending := types.ascending_names
  numbered := .refl _

def size (table : IdentifierTable) : Nat := table.names.length

def identifier? (table : IdentifierTable) (name : String) : Option Identifier :=
  (table.byName.find? (·.1 == name)).map (·.2)

def name? (table : IdentifierTable) (identifier : Identifier) : Option String :=
  if Identifier.isReserved identifier then none else table.names[identifier - Identifier.first]?

def entries (table : IdentifierTable) : List (String × Identifier) :=
  table.names.zipIdx Identifier.first

end IdentifierTable

end SchemaWire
