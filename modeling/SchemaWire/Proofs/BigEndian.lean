import Mathlib.Algebra.Group.Nat.Defs
import Mathlib.Data.List.Induction
import SchemaWire.Bytes

/-! Big-endian bytes and the numbers they denote.

Zero bytes in front are the only freedom: a number has one form without them, and stripping them off
any other form leaves that one. The eight bytes of a machine word are a case of this.
-/

set_option autoImplicit false

namespace SchemaWire.Bytes

/-! ## The value of bytes -/

@[simp] theorem toNat_nil : toNat [] = 0 := rfl

theorem toNat_append_singleton (bytes : Bytes) (last : UInt8) :
    toNat (bytes ++ [last]) = toNat bytes * 256 + last.toNat := by
  simp [toNat]

@[simp] theorem toNat_zero_cons (bytes : Bytes) : toNat (0 :: bytes) = toNat bytes := by
  simp [toNat]

theorem toNat_lt (bytes : Bytes) : toNat bytes < 256 ^ bytes.length := by
  -- The value grows at the end of the bytes, so induction goes from there.
  induction bytes using List.reverseRecOn with
  | nil => simp
  | append_singleton bytes last ih =>
    have digit := last.toNat_lt
    rw [toNat_append_singleton, List.length_append, List.length_singleton, Nat.pow_succ]
    omega

/-! ## The shortest form -/

@[simp] theorem ofNat_zero : ofNat 0 = [] := by simp [ofNat]

theorem ofNat_step {n : Nat} (positive : n ≠ 0) :
    ofNat n = ofNat (n / 256) ++ [UInt8.ofNat (n % 256)] := by
  rw [ofNat, Numeral.digits_step positive (by decide), List.map_append]
  rfl

@[simp] theorem toNat_ofNat (n : Nat) : toNat (ofNat n) = n := by
  induction n using Nat.strongRecOn with
  | ind n ih =>
    by_cases zero : n = 0
    · simp [zero]
    · rw [ofNat_step zero, toNat_append_singleton, ih _ (by omega)]
      have digit : (UInt8.ofNat (n % 256)).toNat = n % 256 := by simp
      omega

theorem ofNat_eq_nil_iff {n : Nat} : ofNat n = [] ↔ n = 0 := by
  constructor
  · intro none
    rw [← toNat_ofNat n, none, toNat_nil]
  · rintro rfl
    exact ofNat_zero

theorem head?_ofNat (n : Nat) : (ofNat n).head? ≠ some 0 := by
  induction n using Nat.strongRecOn with
  | ind n ih =>
    by_cases zero : n = 0
    · simp [zero]
    rw [ofNat_step zero]
    by_cases single : n / 256 = 0
    · -- A single byte is the number itself.
      intro leading
      have digit : (UInt8.ofNat (n % 256)).toNat = n % 256 := by simp
      simp only [single, ofNat_zero, List.nil_append, List.head?_cons, Option.some.injEq] at leading
      rw [leading] at digit
      have : (0 : UInt8).toNat = 0 := rfl
      omega
    · have nonempty : ofNat (n / 256) ≠ [] := fun none => single (ofNat_eq_nil_iff.1 none)
      obtain ⟨first, later, shape⟩ := List.exists_cons_of_ne_nil nonempty
      have leading := ih (n / 256) (by omega)
      rw [shape] at leading ⊢
      exact leading

theorem ofNat_toNat {bytes : Bytes} (minimal : bytes.head? ≠ some 0) :
    ofNat (toNat bytes) = bytes := by
  induction bytes using List.reverseRecOn with
  | nil => simp
  | append_singleton bytes last ih =>
    have digit := last.toNat_lt
    rw [toNat_append_singleton]
    cases bytes with
    | nil =>
      have positive : last.toNat ≠ 0 := by
        intro zero
        have : last = 0 := UInt8.toNat_inj.1 zero
        exact minimal (by simp [this])
      have remainder : last.toNat % 256 = last.toNat := by omega
      have quotient : last.toNat / 256 = 0 := by omega
      rw [toNat_nil, Nat.zero_mul, Nat.zero_add, ofNat_step positive, quotient, remainder]
      simp
    | cons first bytes =>
      have earlier := ih (by simpa using minimal)
      have positive : toNat (first :: bytes) ≠ 0 := by
        intro zero
        rw [zero, ofNat_zero] at earlier
        exact List.cons_ne_nil _ _ earlier.symm
      have quotient : (toNat (first :: bytes) * 256 + last.toNat) / 256 = toNat (first :: bytes) := by
        omega
      have remainder : (toNat (first :: bytes) * 256 + last.toNat) % 256 = last.toNat := by omega
      rw [ofNat_step (by omega), quotient, remainder, earlier]
      simp

theorem length_ofNat_le {n width : Nat} (bounded : n < 256 ^ width) : (ofNat n).length ≤ width := by
  induction width generalizing n with
  | zero =>
    have zero : n = 0 := by simpa using bounded
    simp [zero]
  | succ width ih =>
    by_cases zero : n = 0
    · simp [zero]
    · have quotient : n / 256 < 256 ^ width := by
        rw [Nat.pow_succ] at bounded
        omega
      have earlier := ih quotient
      rw [ofNat_step zero, List.length_append, List.length_singleton]
      omega

theorem length_ofNat_le_iff {n width : Nat} : (ofNat n).length ≤ width ↔ n < 256 ^ width := by
  refine ⟨fun counted => ?_, length_ofNat_le⟩
  calc
    n = toNat (ofNat n) := (toNat_ofNat n).symm
    _ < 256 ^ (ofNat n).length := toNat_lt _
    _ ≤ 256 ^ width := Nat.pow_le_pow_right (by decide) counted

/-! ## Stripping zeros -/

theorem stripZeros_eq_ofNat (bytes : Bytes) : stripZeros bytes = ofNat (toNat bytes) := by
  induction bytes with
  | nil => simp [stripZeros]
  | cons first bytes ih =>
    by_cases zero : first = 0
    · -- A zero in front changes neither side.
      subst zero
      rw [toNat_zero_cons, ← ih]
      simp [stripZeros]
    · rw [ofNat_toNat (by simpa using zero)]
      simp [stripZeros, zero]

/-! ## Machine words -/

theorem div_step (n scale : Nat) : n / (scale * 256) * 256 + n / scale % 256 = n / scale := by
  rw [← Nat.div_div_eq_div_mul, Nat.mul_comm]
  exact Nat.div_add_mod _ _

theorem toNat_byteOfWord (word shift : UInt64) :
    (word >>> shift).toUInt8.toNat = word.toNat / 2 ^ (shift.toNat % 64) % 256 := by
  rw [UInt64.toNat_toUInt8, UInt64.toNat_shiftRight, Nat.shiftRight_eq_div_pow]

theorem toNat_ofWord (word : UInt64) : toNat (ofWord word) = word.toNat := by
  have top : word.toNat / 2 ^ 56 % 256 = word.toNat / 2 ^ 56 :=
    Nat.mod_eq_of_lt ((Nat.div_lt_iff_lt_mul (by decide)).2 word.toNat_lt)
  -- The bytes stay opaque while the fold is opened.
  have opened (a b c d e f g h : UInt8) : toNat [a, b, c, d, e, f, g, h] =
      ((((((a.toNat * 256 + b.toNat) * 256 + c.toNat) * 256 + d.toNat) * 256 + e.toNat) * 256 +
        f.toNat) * 256 + g.toNat) * 256 + h.toNat := by
    simp [toNat]
  simp only [ofWord, List.map_cons, List.map_nil, opened, toNat_byteOfWord, UInt64.toNat_ofNat,
    Nat.reducePow, Nat.reduceMod] at top ⊢
  rw [top, div_step _ 0x1000000000000, div_step _ 0x10000000000, div_step _ 0x100000000,
    div_step _ 0x1000000, div_step _ 0x10000, div_step _ 0x100, div_step _ 1, Nat.div_one]

theorem stripZeros_ofWord (word : UInt64) : (ofWord word).stripZeros = ofNat word.toNat := by
  rw [stripZeros_eq_ofNat, toNat_ofWord]

theorem length_ofNat_word (word : UInt64) : (ofNat word.toNat).length ≤ 8 :=
  length_ofNat_le (by simpa using word.toNat_lt)

theorem toWord_append_singleton (bytes : Bytes) (last : UInt8) :
    toWord (bytes ++ [last]) = (toWord bytes <<< 8) ||| last.toUInt64 := by
  simp [toWord]

theorem toNat_toWord {bytes : Bytes} (short : bytes.length ≤ 8) :
    (toWord bytes).toNat = toNat bytes := by
  induction bytes using List.reverseRecOn with
  | nil => rfl
  | append_singleton bytes last ih =>
    rw [List.length_append, List.length_singleton] at short
    have earlier : toNat bytes < 256 ^ 7 :=
      Nat.lt_of_lt_of_le (toNat_lt bytes) (Nat.pow_le_pow_right (by decide) (by omega))
    have digit : last.toNat < 2 ^ 8 := last.toNat_lt
    -- The shift leaves the low bits free for the last byte, so the bitwise or is a sum.
    have disjoint := Nat.two_pow_add_eq_or_of_lt digit (toNat bytes)
    rw [toWord_append_singleton, toNat_append_singleton, UInt64.toNat_or, UInt64.toNat_shiftLeft,
      ih (by omega), Nat.shiftLeft_eq, UInt8.toNat_toUInt64]
    simp only [UInt64.toNat_ofNat, Nat.reducePow, Nat.reduceMod] at earlier disjoint ⊢
    rw [Nat.mod_eq_of_lt (by omega), Nat.mul_comm, ← disjoint]

theorem toWord_stripZeros_ofWord (word : UInt64) : toWord (ofWord word).stripZeros = word := by
  apply UInt64.toNat_inj.1
  rw [stripZeros_ofWord, toNat_toWord (length_ofNat_word word), toNat_ofNat]

end SchemaWire.Bytes
