import SchemaWire.Json.Basic

/-! Reading JSON numbers. -/

set_option autoImplicit false

namespace SchemaWire.Json

def isDigit (c : Char) : Bool := '0' ≤ c && c ≤ '9'

def takeDigits (text : List Char) : List Nat × List Char :=
  ((text.takeWhile isDigit).map (·.toNat - '0'.toNat), text.dropWhile isDigit)

structure NumberLiteral where
  negative : Bool
  whole : List Nat
  fraction : Option (List Nat)
  exponent : Option Int
  deriving DecidableEq, Repr

/-- Read the digits of the whole part, of which a zero can only be the last one. -/
def takeWhole (text : List Char) : Option (List Nat × List Char) :=
  match takeDigits text with
  | ([], _) => none
  | (0 :: _ :: _, _) => none
  | found => some found

def takeFraction (text : List Char) : Option (Option (List Nat) × List Char) :=
  match text with
  | '.' :: rest =>
    match takeDigits rest with
    | ([], _) => none
    | (digits, rest) => some (some digits, rest)
  | _ => some (none, text)

def takeSign : List Char → Bool × List Char
  | '+' :: rest => (false, rest)
  | '-' :: rest => (true, rest)
  | text => (false, text)

def takeExponent (text : List Char) : Option (Option Int × List Char) :=
  match text with
  | [] => some (none, [])
  | mark :: rest =>
    if mark = 'e' ∨ mark = 'E' then
      let (negative, rest) := takeSign rest
      match takeDigits rest with
      | ([], _) => none
      | (digits, rest) =>
        let size : Int := Numeral.value 10 digits
        some (some (if negative then -size else size), rest)
    else some (none, mark :: rest)

def takeLiteral (text : List Char) : Option (NumberLiteral × List Char) := do
  let (negative, text) :=
    match text with
    | '-' :: rest => (true, rest)
    | _ => (false, text)
  let (whole, text) ← takeWhole text
  let (fraction, text) ← takeFraction text
  let (exponent, text) ← takeExponent text
  return (⟨negative, whole, fraction, exponent⟩, text)

/-- Append digits to a significand as long as it fits a machine word, and say how many are left. -/
def accumulate : Nat → List Nat → Nat × Nat
  | significand, [] => (significand, 0)
  | significand, digit :: digits =>
    let next := significand * 10 + digit
    if next < UInt64.size then accumulate next digits else (significand, digits.length + 1)

def float? (negative : Bool) (significand : Nat) (exponent : Int) : Option Number := do
  let x ← Binary64.ofNat? significand
  let x ← x.timesTenPower? exponent
  return .float (x.withSign negative)

/-- The number that a literal denotes, if it is not too large. Zero with a minus sign, and integers
that fit no machine word, are floating point. Digits that no longer fit the significand count only
by their place. -/
def NumberLiteral.number? (literal : NumberLiteral) : Option Number :=
  let (significand, left) := accumulate 0 literal.whole
  match literal.fraction, literal.exponent with
  | none, none =>
    if left ≠ 0 then float? literal.negative significand left
    else if !literal.negative then some (.natural (UInt64.ofNat significand))
    else if 0 < significand ∧ 2 * significand ≤ UInt64.size then
      some (.negative (Int64.ofInt (-(significand : Int))))
    else float? true significand 0
  | fraction, exponent =>
    let fraction := fraction.getD []
    let (significand, unused) := accumulate significand fraction
    let places : Int := left - (fraction.length - unused : Nat)
    float? literal.negative significand (places + exponent.getD 0)

theorem length_takeDigits (text : List Char) :
    (takeDigits text).1.length + (takeDigits text).2.length = text.length := by
  simp only [takeDigits, List.length_map, ← List.length_append, List.takeWhile_append_dropWhile]

theorem takeWhole_shorter {text rest : List Char} {digits : List Nat}
    (found : takeWhole text = some (digits, rest)) : rest.length < text.length := by
  have whole := length_takeDigits text
  unfold takeWhole at found
  split at found
  · simp at found
  · simp at found
  · rename_i empty _
    rw [Option.some.inj found] at whole
    have : digits ≠ [] := fun none => empty rest (by rw [← none]; exact Option.some.inj found)
    have := List.length_pos_iff.2 this
    simp only at whole
    omega

theorem takeFraction_le {text rest : List Char} {fraction : Option (List Nat)}
    (found : takeFraction text = some (fraction, rest)) : rest.length ≤ text.length := by
  unfold takeFraction at found
  split at found
  · rename_i text
    have := length_takeDigits text
    split at found
    · simp at found
    · simp_all
      omega
  · simp_all

theorem takeSign_le (text : List Char) : (takeSign text).2.length ≤ text.length := by
  unfold takeSign
  split <;> simp

theorem takeExponent_le {text rest : List Char} {exponent : Option Int}
    (found : takeExponent text = some (exponent, rest)) : rest.length ≤ text.length := by
  unfold takeExponent at found
  split at found
  · simp_all
  · rename_i mark text
    split at found
    · have unsigned := takeSign_le text
      have whole := length_takeDigits (takeSign text).2
      simp only at found
      split at found
      · simp at found
      · simp_all
        omega
    · simp_all

theorem takeLiteral_shorter {text rest : List Char} {literal : NumberLiteral}
    (found : takeLiteral text = some (literal, rest)) : rest.length < text.length := by
  simp only [takeLiteral, bind, Option.bind_eq_some_iff, pure, Option.some.injEq,
    Prod.mk.injEq] at found
  obtain ⟨⟨whole, afterWhole⟩, foundWhole, ⟨fraction, afterFraction⟩, foundFraction,
    ⟨exponent, afterExponent⟩, foundExponent, -, rfl⟩ := found
  have := takeWhole_shorter foundWhole
  have := takeFraction_le foundFraction
  have := takeExponent_le foundExponent
  simp only at *
  split at * <;> simp_all <;> omega

end SchemaWire.Json
