import SchemaWire.Json.Basic

/-! JSON values as text, on one line or laid out over several. -/

set_option autoImplicit false

namespace SchemaWire.Json

/-- One character of a string. Only the quote, the backslash and the control characters below the
space cannot stand for themselves. -/
def escaped (c : Char) : List Char :=
  if c = '\x22' then ['\x5c', '\x22']
  else if c = '\x5c' then ['\x5c', '\x5c']
  else if c = '\x08' then ['\x5c', 'b']
  else if c = '\x09' then ['\x5c', 't']
  else if c = '\x0a' then ['\x5c', 'n']
  else if c = '\x0c' then ['\x5c', 'f']
  else if c = '\x0d' then ['\x5c', 'r']
  else if c < ' ' then
    ['\x5c', 'u', '0', '0', Nat.digitChar (c.toNat / 16), Nat.digitChar (c.toNat % 16)]
  else [c]

def quoted (text : String) : String :=
  String.ofList ('\x22' :: text.toList.flatMap escaped ++ ['\x22'])

def boolText (value : Bool) : String := if value then "true" else "false"

mutual

def compact : Json → String
  | null => "null"
  | bool value => boolText value
  | number n => n.text
  | string text => quoted text
  | array items => "[" ++ ",".intercalate (compactItems items) ++ "]"
  | object members => "\x7b" ++ ",".intercalate (compactMembers members) ++ "\x7d"

def compactItems : List Json → List String
  | [] => []
  | item :: items => compact item :: compactItems items

def compactMembers : List (String × Json) → List String
  | [] => []
  | (key, value) :: members => (quoted key ++ ":" ++ compact value) :: compactMembers members

end

def indentation (depth : Nat) : String := String.ofList (List.replicate (2 * depth) ' ')

/-- Children on lines of their own between two brackets. Without children the brackets touch. -/
def block (depth : Nat) (opening closing : String) (children : List String) : String :=
  if children.isEmpty then opening ++ closing
  else
    let line := "\n" ++ indentation (depth + 1)
    opening ++ line ++ ("," ++ line).intercalate children ++ "\n" ++ indentation depth ++ closing

mutual

def prettyAt (depth : Nat) : Json → String
  | null => "null"
  | bool value => boolText value
  | number n => n.text
  | string text => quoted text
  | array items => block depth "[" "]" (prettyItems (depth + 1) items)
  | object members => block depth "\x7b" "\x7d" (prettyMembers (depth + 1) members)

def prettyItems (depth : Nat) : List Json → List String
  | [] => []
  | item :: items => prettyAt depth item :: prettyItems depth items

def prettyMembers (depth : Nat) : List (String × Json) → List String
  | [] => []
  | (key, value) :: members =>
    (quoted key ++ ": " ++ prettyAt depth value) :: prettyMembers depth members

end

def pretty (json : Json) : String := prettyAt 0 json

end SchemaWire.Json
