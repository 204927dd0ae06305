import SchemaWire.Json.NumberLiteral
import SchemaWire.Json.StringLiteral

/-! The tokens of JSON text.

No two values can follow each other without a comma, so a token may end wherever it can.
-/

set_option autoImplicit false

namespace SchemaWire.Json

inductive Token where
  | openArray
  | closeArray
  | openObject
  | closeObject
  | comma
  | colon
  | null
  | bool (value : Bool)
  | number (number : Number)
  | string (text : String)
  deriving DecidableEq, Repr

def isBlank (c : Char) : Bool := c == ' ' || c == '\n' || c == '\t' || c == '\r'

def Token.take (text : List Char) : Option (Token × List Char) :=
  match text with
  | [] => none
  | '[' :: rest => some (.openArray, rest)
  | ']' :: rest => some (.closeArray, rest)
  | '\x7b' :: rest => some (.openObject, rest)
  | '\x7d' :: rest => some (.closeObject, rest)
  | ',' :: rest => some (.comma, rest)
  | ':' :: rest => some (.colon, rest)
  | 'n' :: 'u' :: 'l' :: 'l' :: rest => some (.null, rest)
  | 't' :: 'r' :: 'u' :: 'e' :: rest => some (.bool true, rest)
  | 'f' :: 'a' :: 'l' :: 's' :: 'e' :: rest => some (.bool false, rest)
  | '\x22' :: rest => do
    let (characters, rest) ← takeString rest
    return (.string (String.ofList characters), rest)
  | text => do
    let (literal, rest) ← takeLiteral text
    let number ← literal.number?
    return (.number number, rest)

theorem Token.take_shorter {text rest : List Char} {token : Token}
    (found : Token.take text = some (token, rest)) : rest.length < text.length := by
  unfold Token.take at found
  split at found
  case h_11 =>
    simp only [bind, Option.bind_eq_some_iff, pure, Option.some.injEq, Prod.mk.injEq] at found
    obtain ⟨⟨characters, text⟩, found, -, rfl⟩ := found
    have := takeString_shorter found
    simp only [List.length_cons]
    omega
  case h_12 =>
    simp only [bind, Option.bind_eq_some_iff, pure, Option.some.injEq, Prod.mk.injEq] at found
    obtain ⟨⟨literal, text⟩, found, _, -, -, rfl⟩ := found
    exact takeLiteral_shorter found
  all_goals simp_all
  all_goals omega

def tokens (text : List Char) : Option (List Token) :=
  match text with
  | [] => some []
  | c :: rest =>
    if isBlank c then tokens rest
    else
      match _ : Token.take (c :: rest) with
      | none => none
      | some (token, rest) => do
        let later ← tokens rest
        return token :: later
termination_by text.length
decreasing_by
  · simp
  · exact Token.take_shorter ‹_›

end SchemaWire.Json
