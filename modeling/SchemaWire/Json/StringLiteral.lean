import SchemaWire.Numeral

/-! Reading JSON strings.

Characters beyond the first plane are escaped as pairs of UTF-16 units, and half a pair is refused.
-/

set_option autoImplicit false

namespace SchemaWire.Json

def hexDigit? (c : Char) : Option Nat :=
  if '0' ≤ c ∧ c ≤ '9' then some (c.toNat - '0'.toNat)
  else if 'a' ≤ c ∧ c ≤ 'f' then some (c.toNat - 'a'.toNat + 10)
  else if 'A' ≤ c ∧ c ≤ 'F' then some (c.toNat - 'A'.toNat + 10)
  else none

def unit? (digits : List Char) : Option Nat := do
  let digits ← digits.mapM hexDigit?
  return Numeral.value 16 digits

def isLeading (unit : Nat) : Bool := 0xd800 ≤ unit && unit ≤ 0xdbff

def isTrailing (unit : Nat) : Bool := 0xdc00 ≤ unit && unit ≤ 0xdfff

def joined (leading trailing : Nat) : Char :=
  Char.ofNat (0x10000 + (leading - 0xd800) * 0x400 + (trailing - 0xdc00))

def unescaped? (c : Char) : Option Char :=
  if c = '\x22' ∨ c = '\x5c' ∨ c = '/' then some c
  else if c = 'b' then some '\x08'
  else if c = 'f' then some '\x0c'
  else if c = 'n' then some '\x0a'
  else if c = 'r' then some '\x0d'
  else if c = 't' then some '\x09'
  else none

/-- Read a string up to its closing quote. A surrogate must stand in a pair, and a control character
below the space must be escaped. -/
def takeString (text : List Char) : Option (List Char × List Char) :=
  match text with
  | [] => none
  | '\x22' :: rest => some ([], rest)
  | '\x5c' :: 'u' :: a :: b :: c :: d :: rest => do
    let unit ← unit? [a, b, c, d]
    if isTrailing unit then none
    else if isLeading unit then
      match rest with
      | '\x5c' :: 'u' :: a :: b :: c :: d :: rest => do
        let second ← unit? [a, b, c, d]
        if isTrailing second then
          let (characters, rest) ← takeString rest
          return (joined unit second :: characters, rest)
        else none
      | _ => none
    else
      let (characters, rest) ← takeString rest
      return (Char.ofNat unit :: characters, rest)
  | '\x5c' :: c :: rest => do
    let c ← unescaped? c
    let (characters, rest) ← takeString rest
    return (c :: characters, rest)
  | c :: rest =>
    if c < ' ' then none
    else do
      let (characters, rest) ← takeString rest
      return (c :: characters, rest)

theorem takeString_shorter {text characters rest : List Char}
    (found : takeString text = some (characters, rest)) : rest.length < text.length := by
  fun_induction takeString text generalizing characters rest with
  | case1 => simp at found
  | case2 => simp_all
  | case3 a b c d text inPair ih =>
    simp only [bind, Option.bind_eq_some_iff] at found
    obtain ⟨unit, -, found⟩ := found
    split at found
    · simp at found
    · split at found
      · split at found
        · simp only [Option.bind_eq_some_iff] at found
          obtain ⟨second, -, found⟩ := found
          split at found
          · simp only [Option.bind_eq_some_iff, pure, Option.some.injEq, Prod.mk.injEq] at found
            obtain ⟨⟨characters, text⟩, found, -, rfl⟩ := found
            have := inPair found
            simp only [List.length_cons]
            omega
          · simp at found
        · simp at found
      · simp only [Option.bind_eq_some_iff, pure, Option.some.injEq, Prod.mk.injEq] at found
        obtain ⟨⟨characters, text⟩, found, -, rfl⟩ := found
        have := ih found
        simp only [List.length_cons]
        omega
  | case4 c text _ ih =>
    simp only [bind, Option.bind_eq_some_iff, pure, Option.some.injEq, Prod.mk.injEq] at found
    obtain ⟨_, -, ⟨characters, text⟩, found, -, rfl⟩ := found
    have := ih found
    simp only [List.length_cons]
    omega
  | case5 => simp at found
  | case6 c text =>
    rename_i ih
    simp only [bind, Option.bind_eq_some_iff, pure, Option.some.injEq, Prod.mk.injEq] at found
    obtain ⟨⟨characters, text⟩, found, -, rfl⟩ := found
    have := ih found
    simp only [List.length_cons]
    omega

end SchemaWire.Json
