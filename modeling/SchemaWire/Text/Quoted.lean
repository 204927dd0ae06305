import SchemaWire.Numeral
import SchemaWire.Text.Extending
import SchemaWire.Text.Printable

/-! Text in quotes, with every character that would not show as itself escaped. -/

set_option autoImplicit false

namespace SchemaWire.Text

def escaped (quote c : Char) : String :=
  if c = '\x00' then "\\0"
  else if c = '\t' then "\\t"
  else if c = '\n' then "\\n"
  else if c = '\r' then "\\r"
  else if c = '\x5c' then "\\\\"
  else if c = quote then "\\" ++ String.singleton quote
  else if isExtending c || !isPrintable c then "\\u\x7b" ++ Numeral.hex c.toNat ++ "\x7d"
  else String.singleton c

def quotedString (text : String) : String :=
  "\"" ++ String.join (text.toList.map (escaped '\x22')) ++ "\""

def quotedChar (c : Char) : String := "'" ++ escaped '\x27' c ++ "'"

end SchemaWire.Text
