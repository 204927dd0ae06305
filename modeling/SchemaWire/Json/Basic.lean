import SchemaWire.Decimal.Shortest

/-! JSON values.

A number that is written as an integer and fits a machine word stays one. All others are floating
point. An object lists its members under distinct keys.
-/

set_option autoImplicit false

namespace SchemaWire

namespace Json

inductive Number where
  | natural (n : UInt64)
  /-- A number below zero. -/
  | negative (n : Int64)
  | float (x : Binary64)
  deriving DecidableEq, Repr

inductive Form where
  | null
  | bool
  | number
  | string
  | array
  | object
  deriving DecidableEq, Repr

def Form.word : Form → String
  | null => "null"
  | bool => "bool"
  | number => "number"
  | string => "string"
  | array => "array"
  | object => "object"

end Json

inductive Json where
  | null
  | bool (value : Bool)
  | number (number : Json.Number)
  | string (text : String)
  | array (items : List Json)
  | object (members : List (String × Json))
  deriving Inhabited

namespace Json

def form : Json → Form
  | null => .null
  | bool _ => .bool
  | number _ => .number
  | string _ => .string
  | array _ => .array
  | object _ => .object

namespace Number

/-- Floating point numbers are written without an exponent from `0.00001` up to sixteen digits in
front of the point. -/
def layout : Decimal.Layout := ⟨-5, 15⟩

def text : Number → String
  | natural n => Numeral.decimal n.toNat
  | negative n => "-" ++ Numeral.decimal n.toInt.natAbs
  | float x =>
    let sign := if x.negative then "-" else ""
    sign ++ layout.text x.shortest

end Number

/-- Put a member at the end, or in the place of the one that has its key. -/
def putMember (key : String) (value : Json) : List (String × Json) → List (String × Json)
  | [] => [(key, value)]
  | first :: rest =>
    if first.1 = key then (key, value) :: rest else first :: putMember key value rest

end Json

end SchemaWire
