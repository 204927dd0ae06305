import SchemaWire.Numeral

/-! Natural numbers in decimal as people type them: an optional plus sign, and low lines anywhere
behind the first digit.
-/

set_option autoImplicit false

namespace SchemaWire.Decimal.Natural

inductive Refusal where
  | empty
  | invalidDigit
  deriving DecidableEq, Repr

def Refusal.message : Refusal → String
  | empty => "cannot parse integer from empty string"
  | invalidDigit => "invalid digit found in string"

def isDigit (c : Char) : Bool := '0' ≤ c && c ≤ '9'

def digitValue (c : Char) : Nat := c.toNat - '0'.toNat

-- A second plus sign stays and is refused as a digit.
def dropSign : List Char → List Char
  | '+' :: '+' :: rest => '+' :: '+' :: rest
  | '+' :: rest => rest
  | text => text

def read (text : List Char) : Except Refusal Nat :=
  match dropSign text with
  | [] => .error .empty
  | '_' :: _ => .error .invalidDigit
  | characters =>
    let digits := characters.filter (· != '_')
    if digits.all isDigit then .ok (Numeral.value 10 (digits.map digitValue))
    else .error .invalidDigit

end SchemaWire.Decimal.Natural
