/-! Positional numerals: the digits of a number in a base, most significant first.

No numeral starts with a zero digit, so zero itself has no digits and every number has one numeral.
-/

set_option autoImplicit false

namespace SchemaWire.Numeral

/-- The digits of `n` in front of `tail`. A base below two has no numerals. -/
def digitsOnto (base n : Nat) (tail : List Nat) : List Nat :=
  if n = 0 ∨ base < 2 then tail else digitsOnto base (n / base) (n % base :: tail)
termination_by n
decreasing_by exact Nat.div_lt_self (by omega) (by omega)

def digits (base n : Nat) : List Nat := digitsOnto base n []

def value (base : Nat) (ds : List Nat) : Nat := ds.foldl (fun n d => n * base + d) 0

@[simp] theorem digits_zero (base : Nat) : digits base 0 = [] := by
  unfold digits digitsOnto
  simp

theorem digitsOnto_eq (base n : Nat) (tail : List Nat) :
    digitsOnto base n tail = digits base n ++ tail := by
  unfold digits
  induction n using Nat.strongRecOn generalizing tail with
  | ind n ih =>
    unfold digitsOnto
    split
    · rfl
    · rename_i inRange
      have smaller : n / base < n := Nat.div_lt_self (by omega) (by omega)
      rw [ih _ smaller (n % base :: tail), ih _ smaller [n % base]]
      simp

theorem digits_step {base n : Nat} (positive : n ≠ 0) (wide : 2 ≤ base) :
    digits base n = digits base (n / base) ++ [n % base] := by
  rw [digits, digitsOnto, if_neg (by omega), digitsOnto_eq]

@[simp] theorem value_nil (base : Nat) : value base [] = 0 := rfl

theorem value_append_singleton (base : Nat) (ds : List Nat) (d : Nat) :
    value base (ds ++ [d]) = value base ds * base + d := by
  simp [value]

theorem value_digits {base : Nat} (wide : 2 ≤ base) (n : Nat) : value base (digits base n) = n := by
  induction n using Nat.strongRecOn with
  | ind n ih =>
    by_cases zero : n = 0
    · simp [zero]
    · rw [digits_step zero wide, value_append_singleton,
        ih _ (Nat.div_lt_self (by omega) (by omega)), Nat.mul_comm]
      exact Nat.div_add_mod n base

def text (base n : Nat) : String :=
  if n = 0 then "0" else String.ofList ((digits base n).map Nat.digitChar)

def hex (n : Nat) : String := text 16 n

def decimal (n : Nat) : String := text 10 n

end SchemaWire.Numeral
