import SchemaWire.Numeral

/-! Byte strings, the big-endian numbers they denote, and cutting a counted piece off the front. -/

set_option autoImplicit false

namespace SchemaWire

abbrev Bytes := List UInt8

def splitAt? {α : Type} (n : Nat) (xs : List α) : Option (List α × List α) :=
  let front := xs.take n
  if front.length = n then some (front, xs.drop n) else none

theorem splitAt?_eq_some_iff {α : Type} {n : Nat} {xs front rest : List α} :
    splitAt? n xs = some (front, rest) ↔ xs = front ++ rest ∧ front.length = n := by
  simp only [splitAt?, Option.ite_none_right_eq_some, Option.some.injEq, Prod.mk.injEq]
  constructor
  · rintro ⟨counted, rfl, rfl⟩
    exact ⟨(List.take_append_drop n xs).symm, counted⟩
  · rintro ⟨rfl, rfl⟩
    simp

@[simp] theorem splitAt?_append {α : Type} (front rest : List α) :
    splitAt? front.length (front ++ rest) = some (front, rest) :=
  splitAt?_eq_some_iff.2 ⟨rfl, rfl⟩

theorem splitAt?_eq_none_iff {α : Type} {n : Nat} {xs : List α} :
    splitAt? n xs = none ↔ xs.length < n := by
  simp only [splitAt?, List.length_take]
  split <;> simp <;> omega

namespace Bytes

/-- The number that bytes denote, most significant byte first. -/
def toNat (bytes : Bytes) : Nat := bytes.foldl (fun n byte => n * 256 + byte.toNat) 0

/-- The shortest bytes that denote `n`; none at all for zero. -/
def ofNat (n : Nat) : Bytes := (Numeral.digits 256 n).map UInt8.ofNat

def ofWord (word : UInt64) : Bytes :=
  [56, 48, 40, 32, 24, 16, 8, 0].map fun shift : UInt64 => (word >>> shift).toUInt8

def toWord (bytes : Bytes) : UInt64 :=
  bytes.foldl (fun word byte => (word <<< 8) ||| byte.toUInt64) 0

def stripZeros (bytes : Bytes) : Bytes := bytes.dropWhile (· == 0)

end Bytes

end SchemaWire
