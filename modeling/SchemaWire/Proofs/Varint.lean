import SchemaWire.Proofs.BigEndian
import SchemaWire.Proofs.Outcome
import SchemaWire.Varint

/-! Varints and length prefixes read back exactly what was written, and nothing else.

Each reader has one statement for both directions: it accepts a value with a rest just when the
input is the form of that value followed by that rest.
-/

set_option autoImplicit false

namespace SchemaWire.Varint

theorem toNat_lengthByte {length : Nat} (counted : length ≤ maxLength) :
    (UInt8.ofNat length).toNat = length := by
  rw [UInt8.toNat_ofNat']
  exact Nat.mod_eq_of_lt (Nat.lt_succ_of_le counted)

theorem popDigits_eq_ok_iff {bytes digits rest : Bytes} :
    popDigits bytes = .ok (digits, rest) ↔
      bytes = UInt8.ofNat digits.length :: (digits ++ rest) ∧ digits.length ≤ maxLength ∧
        digits.head? ≠ some 0 := by
  constructor
  · intro popped
    cases bytes with
    | nil => simp [popDigits] at popped
    | cons length bytes =>
      simp only [popDigits] at popped
      split at popped
      · simp at popped
      · rename_i cut
        split at popped
        · simp at popped
        · rename_i minimal
          simp only [Except.ok.injEq, Prod.mk.injEq] at popped
          obtain ⟨rfl, rfl⟩ := popped
          obtain ⟨rfl, counted⟩ := splitAt?_eq_some_iff.1 cut
          have bounded := length.toNat_lt
          refine ⟨?_, by rw [counted]; exact Nat.le_of_lt_succ bounded, minimal⟩
          rw [counted, UInt8.ofNat_toNat]
  · rintro ⟨rfl, counted, minimal⟩
    simp [popDigits, toNat_lengthByte counted, minimal]

/-! ## Numbers of any size -/

theorem encode_eq_ok_iff {n : Nat} {bytes : Bytes} :
    encode n = .ok bytes ↔
      (Bytes.ofNat n).length ≤ maxLength ∧
        bytes = UInt8.ofNat (Bytes.ofNat n).length :: Bytes.ofNat n := by
  simp only [encode]
  split
  · rename_i counted
    simp [counted, eq_comm]
  · rename_i long
    simp [long]

theorem exists_encode_iff {n : Nat} : (∃ bytes, encode n = .ok bytes) ↔ n < 2 ^ 2040 := by
  have bits : 8 * maxLength = 2040 := rfl
  rw [← bits, Nat.pow_mul, ← Bytes.length_ofNat_le_iff]
  constructor
  · rintro ⟨bytes, written⟩
    exact (encode_eq_ok_iff.1 written).1
  · intro counted
    exact ⟨_, encode_eq_ok_iff.2 ⟨counted, rfl⟩⟩

theorem le_of_encode_eq_error {n : Nat} {number : TooLong} (long : encode n = .error number) :
    2 ^ 2040 ≤ n := by
  refine Nat.le_of_not_lt fun short => ?_
  obtain ⟨bytes, written⟩ := exists_encode_iff.2 short
  cases long.symm.trans written

theorem pop_eq_ok_iff {bytes rest : Bytes} {n : Nat} :
    pop bytes = .ok (n, rest) ↔ ∃ front, encode n = .ok front ∧ bytes = front ++ rest := by
  simp only [pop, Outcome.bind_eq_ok_iff, Prod.exists, popDigits_eq_ok_iff, Outcome.pure_eq_ok_iff,
    Prod.mk.injEq, encode_eq_ok_iff]
  constructor
  · rintro ⟨digits, _, ⟨rfl, counted, minimal⟩, rfl, rfl⟩
    rw [Bytes.ofNat_toNat minimal]
    exact ⟨_, ⟨counted, rfl⟩, rfl⟩
  · rintro ⟨_, ⟨counted, rfl⟩, rfl⟩
    exact ⟨_, rest, ⟨rfl, counted, Bytes.head?_ofNat n⟩, Bytes.toNat_ofNat n, rfl⟩

/-! ## Machine words -/

theorem encodeWord_eq (word : UInt64) :
    encodeWord word =
      UInt8.ofNat (Bytes.ofNat word.toNat).length :: Bytes.ofNat word.toNat := by
  simp only [encodeWord, Bytes.stripZeros_ofWord]

theorem length_encodeWord_pos (word : UInt64) : 0 < (encodeWord word).length := by
  simp [encodeWord]

theorem popWord_eq_ok_iff {bytes rest : Bytes} {word : UInt64} :
    popWord bytes = .ok (word, rest) ↔ bytes = encodeWord word ++ rest := by
  simp only [popWord, Outcome.bind_eq_ok_iff, Prod.exists, popDigits_eq_ok_iff, encodeWord_eq]
  constructor
  · rintro ⟨digits, later, ⟨rfl, counted, minimal⟩, read⟩
    -- More than eight digits are refused, and fewer fit the word whatever they are.
    split at read
    · exact absurd read (Outcome.throw_ne_ok _ _)
    · rename_i short
      simp only [Outcome.pure_eq_ok_iff, Prod.mk.injEq] at read
      obtain ⟨rfl, rfl⟩ := read
      rw [Bytes.toNat_toWord (Nat.le_of_not_lt short), Bytes.ofNat_toNat minimal]
      rfl
  · rintro rfl
    have short := Bytes.length_ofNat_word word
    have counted : (Bytes.ofNat word.toNat).length ≤ maxLength := Nat.le_trans short (by decide)
    refine ⟨_, rest, ⟨rfl, counted, Bytes.head?_ofNat _⟩, ?_⟩
    rw [if_neg (Nat.not_lt_of_le short), ← Bytes.stripZeros_ofWord, Bytes.toWord_stripZeros_ofWord]
    rfl

theorem popLength_eq_ok_iff {bytes rest : Bytes} {length : Nat} :
    popLength bytes = .ok (length, rest) ↔
      length < UInt64.size ∧ bytes = encodeWord (UInt64.ofNat length) ++ rest := by
  simp only [popLength, Outcome.bind_eq_ok_iff, Prod.exists, popWord_eq_ok_iff,
    Outcome.pure_eq_ok_iff, Prod.mk.injEq]
  constructor
  · rintro ⟨word, _, rfl, rfl, rfl⟩
    rw [UInt64.ofNat_toNat]
    exact ⟨word.toNat_lt, rfl⟩
  · rintro ⟨fits, rfl⟩
    exact ⟨_, rest, rfl, UInt64.toNat_ofNat_of_lt' fits, rfl⟩

/-! ## Length prefixes -/

theorem popPrefixed_eq_ok_iff {bytes payload rest : Bytes} :
    popPrefixed bytes = .ok (payload, rest) ↔
      payload.length < UInt64.size ∧ bytes = prefixed payload ++ rest := by
  simp only [popPrefixed, Outcome.bind_eq_ok_iff, Prod.exists, popLength_eq_ok_iff]
  constructor
  · rintro ⟨length, later, ⟨fits, rfl⟩, read⟩
    split at read
    · rename_i cut cutting
      simp only [Outcome.pure_eq_ok_iff] at read
      subst read
      obtain ⟨rfl, rfl⟩ := splitAt?_eq_some_iff.1 cutting
      exact ⟨fits, by simp [prefixed]⟩
    · exact absurd read (Outcome.throw_ne_ok _ _)
  · rintro ⟨fits, rfl⟩
    refine ⟨payload.length, payload ++ rest, ⟨fits, by simp [prefixed]⟩, ?_⟩
    simp

theorem length_lt_length_prefixed (payload : Bytes) : payload.length < (prefixed payload).length := by
  have := length_encodeWord_pos (UInt64.ofNat payload.length)
  simp only [prefixed, List.length_append]
  omega

end SchemaWire.Varint
