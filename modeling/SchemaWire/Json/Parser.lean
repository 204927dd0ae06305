import SchemaWire.Json.Token

/-! Reading JSON text.

The tokens are read one by one. What has been read so far is held as the containers that are still
open, the innermost first, and what may follow there. How deep containers may nest is limited.
-/

set_option autoImplicit false

namespace SchemaWire.Json

inductive Open where
  /-- The items so far, the last in front. -/
  | array (items : List Json)
  | object (members : List (String × Json)) (key : String)

inductive Reading where
  /-- A value must follow. -/
  | value (outer : List Open)
  /-- An array was opened: a value must follow, or the array ends. -/
  | item (outer : List Open)
  /-- An object was opened: a key must follow, or the object ends. -/
  | member (outer : List Open)
  /-- A comma was read in an object: a key must follow. -/
  | key (members : List (String × Json)) (outer : List Open)
  /-- A colon must follow the key. -/
  | colon (members : List (String × Json)) (key : String) (outer : List Open)
  /-- A value was completed. -/
  | completed (json : Json) (outer : List Open)

def beginValue (most : Nat) (outer : List Open) : Token → Option Reading
  | .null => some (.completed .null outer)
  | .bool value => some (.completed (.bool value) outer)
  | .number n => some (.completed (.number n) outer)
  | .string text => some (.completed (.string text) outer)
  | .openArray => if outer.length < most then some (.item outer) else none
  | .openObject => if outer.length < most then some (.member outer) else none
  | _ => none

def continueAfter (json : Json) : List Open → Token → Option Reading
  | .array items :: outer, .comma => some (.value (.array (json :: items) :: outer))
  | .array items :: outer, .closeArray => some (.completed (.array (json :: items).reverse) outer)
  | .object members key :: outer, .comma => some (.key (putMember key json members) outer)
  | .object members key :: outer, .closeObject =>
    some (.completed (.object (putMember key json members)) outer)
  | _, _ => none

def Reading.next (most : Nat) : Reading → Token → Option Reading
  | .value outer, token => beginValue most outer token
  | .item outer, .closeArray => some (.completed (.array []) outer)
  | .item outer, token => beginValue most (.array [] :: outer) token
  | .member outer, .closeObject => some (.completed (.object []) outer)
  | .member outer, .string name => some (.colon [] name outer)
  | .key members outer, .string name => some (.colon members name outer)
  | .colon members name outer, .colon => some (.value (.object members name :: outer))
  | .completed json outer, token => continueAfter json outer token
  | _, _ => none

/-- The value that a text stands for in which at most `most` containers are open at a time. Nothing
but white space may follow it. -/
def parseWithin? (most : Nat) (text : String) : Option Json := do
  let tokens ← tokens text.toList
  match ← tokens.foldlM (Reading.next most) (.value []) with
  | .completed json [] => return json
  | _ => none

def maxOpen : Nat := 127

def parse? (text : String) : Option Json := parseWithin? maxOpen text

end SchemaWire.Json
