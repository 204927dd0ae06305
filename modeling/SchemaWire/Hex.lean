import SchemaWire.Bytes
import SchemaWire.Text.Quoted

/-! Bytes as text: two lower-case hexadecimal digits a byte.

Reading also takes upper-case digits and ignores ASCII white space anywhere. It works on the UTF-8
bytes of the text, so that a character outside of ASCII counts as several bad digits.
-/

set_option autoImplicit false

namespace SchemaWire.Hex

inductive Refusal where
  | oddCount (digits : Nat)
  | badDigit (byte : UInt8)
  deriving DecidableEq, Repr

def Refusal.message : Refusal → String
  | oddCount digits => s!"odd number of hex digits ({digits})"
  | badDigit byte => "invalid hex digit " ++ Text.quotedChar (Char.ofNat byte.toNat)

def digit (n : Nat) : Char := Nat.digitChar n

def encodeByte (byte : UInt8) : List Char := [digit (byte.toNat / 16), digit (byte.toNat % 16)]

def encode (bytes : Bytes) : String := String.ofList (bytes.flatMap encodeByte)

/-- Space, tab, line feed, form feed and carriage return. -/
def isBlank (byte : UInt8) : Bool :=
  byte == 0x20 || byte == 0x9 || byte == 0xa || byte == 0xc || byte == 0xd

def digitValue? (byte : UInt8) : Option UInt8 :=
  if 0x30 ≤ byte ∧ byte ≤ 0x39 then some (byte - 0x30)
  else if 0x61 ≤ byte ∧ byte ≤ 0x66 then some (byte - 0x61 + 10)
  else if 0x41 ≤ byte ∧ byte ≤ 0x46 then some (byte - 0x41 + 10)
  else none

def valueOf (byte : UInt8) : Except Refusal UInt8 :=
  match digitValue? byte with
  | some value => .ok value
  | none => .error (.badDigit byte)

/-- Join digits two by two. A last digit without a partner is left out. -/
def decodePairs : Bytes → Except Refusal Bytes
  | high :: low :: rest => do
    let high ← valueOf high
    let low ← valueOf low
    let bytes ← decodePairs rest
    return (high * 16 + low) :: bytes
  | _ => .ok []

def decodeBytes (text : Bytes) : Except Refusal Bytes :=
  let digits := text.filter (!isBlank ·)
  if digits.length % 2 = 1 then .error (.oddCount digits.length) else decodePairs digits

def decode (text : String) : Except Refusal Bytes :=
  decodeBytes (text.toList.flatMap String.utf8EncodeChar)

end SchemaWire.Hex
