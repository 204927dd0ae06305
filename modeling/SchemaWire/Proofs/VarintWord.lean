import SchemaWire.Proofs.VarintCode

/-! Machine words are varints like all other numbers.

A word has eight bytes whose leading zeros are dropped, a number of any size has its shortest bytes,
and below `2 ^ 64` these are the same. The reader of words looks at no more than the count of the
digits. Since no digits start with a zero, the count alone tells whether the number is a word.
-/

set_option autoImplicit false

namespace SchemaWire.Varint

variable {n : Nat} {source digits rest : Bytes}

/-! ## Putting -/

theorem putWord_eq (word : UInt64) (buffer : Bytes) :
    putWord word buffer = buffer ++ encodeWord word := by
  simp [putWord, encodeWord]

theorem encode_of_lt (small : n < 2 ^ 64) : encode n = .ok (encodeWord (UInt64.ofNat n)) := by
  have word : (UInt64.ofNat n).toNat = n := UInt64.toNat_ofNat_of_lt' small
  have counted : (Bytes.ofNat n).length ≤ maxLength :=
    Nat.le_trans (word ▸ Bytes.length_ofNat_word (UInt64.ofNat n)) (by decide)
  rw [encode_eq_ok_iff, encodeWord_eq, word]
  exact ⟨counted, rfl⟩

theorem put_of_lt (small : n < 2 ^ 64) (buffer : Bytes) :
    put n buffer = (.ok (), putWord (UInt64.ofNat n) buffer) := by
  rw [put_eq, encode_of_lt small, putWord_eq]

/-! ## Reading -/

theorem eight_lt_length_iff (minimal : digits.head? ≠ some 0) :
    8 < digits.length ↔ ¬ digits.toNat < 2 ^ 64 := by
  have bound : (2 : Nat) ^ 64 = 256 ^ 8 := rfl
  rw [bound, ← Bytes.length_ofNat_le_iff, Bytes.ofNat_toNat minimal, Nat.not_le]

theorem popLength_eq (source : Bytes) :
    popLength source =
      match pop source with
      | .ok (n, rest) => if n < 2 ^ 64 then .ok (n, rest) else .error .wide
      | .error refusal => .error refusal := by
  simp only [popLength, popWord, pop]
  cases popped : popDigits source with
  | error refusal => rfl
  | ok cut =>
    obtain ⟨digits, rest⟩ := cut
    have wide := eight_lt_length_iff (popDigits_eq_ok_iff.1 popped).2.2
    simp only [Outcome.ok_bind]
    by_cases long : 8 < digits.length
    · rw [if_pos long]
      show _ = if digits.toNat < 2 ^ 64 then _ else _
      rw [if_neg (wide.1 long)]
      rfl
    · have small : digits.toNat < 2 ^ 64 := Decidable.not_not.1 (mt wide.2 long)
      rw [if_neg long]
      show Except.ok (digits.toWord.toNat, rest) = if digits.toNat < 2 ^ 64 then _ else _
      rw [if_pos small, Bytes.toNat_toWord (Nat.le_of_not_lt long)]

theorem popLength_eq_popWord (source : Bytes) :
    popLength source = (popWord source).map fun (word, rest) => (word.toNat, rest) := by
  rw [popLength]
  cases popWord source <;> rfl

theorem popWord_of_popLength_error {refusal : Refusal}
    (failed : popLength source = .error refusal) : popWord source = .error refusal := by
  rw [popLength_eq_popWord] at failed
  cases read : popWord source with
  | error other =>
    rw [read] at failed
    cases failed
    rfl
  | ok cut =>
    rw [read] at failed
    cases failed

theorem popWord_eq_ok_iff_pop {word : UInt64} :
    popWord source = .ok (word, rest) ↔ pop source = .ok (word.toNat, rest) := by
  rw [popWord_eq_ok_iff, pop_eq_ok_iff]
  have written : encode word.toNat = .ok (encodeWord word) := by
    rw [encode_of_lt word.toNat_lt, UInt64.ofNat_toNat]
  simp [written]

/-- The two ways to write and to read a number agree: on what is put into a buffer below `2 ^ 64`,
and on which number is read with which rest. What is no number is no word for the same reason, and a
number that is no word is refused as too wide. A length is a word. -/
theorem word_path_agrees :
    (∀ n, n < 2 ^ 64 → ∀ buffer, put n buffer = (.ok (), putWord (UInt64.ofNat n) buffer)) ∧
    (∀ source n rest, (∃ word : UInt64, word.toNat = n ∧ popWord source = .ok (word, rest)) ↔
      pop source = .ok (n, rest) ∧ n < 2 ^ 64) ∧
    (∀ source n rest, pop source = .ok (n, rest) → 2 ^ 64 ≤ n →
      (popWord source).mapError CodecError.ofVarint =
        .error (.conversion "Varint" (.varint .wide))) ∧
    (∀ source refusal, pop source = .error refusal →
      (popWord source).mapError CodecError.ofVarint =
        .error (.conversion "Varint" (.varint refusal))) ∧
    ∀ source, popLength source = (popWord source).map fun (word, rest) => (word.toNat, rest) := by
  refine ⟨fun n small buffer => put_of_lt small buffer, ?_, ?_, ?_, popLength_eq_popWord⟩
  · intro source n rest
    constructor
    · rintro ⟨word, rfl, read⟩
      exact ⟨popWord_eq_ok_iff_pop.1 read, word.toNat_lt⟩
    · rintro ⟨read, small⟩
      have word : (UInt64.ofNat n).toNat = n := UInt64.toNat_ofNat_of_lt' small
      exact ⟨UInt64.ofNat n, word, popWord_eq_ok_iff_pop.2 (word.symm ▸ read)⟩
  · intro source n rest read large
    have refused : popLength source = .error .wide := by
      rw [popLength_eq, read]
      exact if_neg (Nat.not_lt_of_le large)
    rw [popWord_of_popLength_error refused]
    rfl
  · intro source refusal failed
    have refused : popLength source = .error refusal := by
      rw [popLength_eq, failed]
    rw [popWord_of_popLength_error refused]
    rfl

/-- The greatest word has eight digits. Nine digits are too wide, unless the first is a zero, which
is found sooner. -/
theorem word_path_agrees_boundary :
    put 0xffffffffffffffff [9] = (.ok (), putWord 0xffffffffffffffff [9]) ∧
      (∃ word : UInt64, word.toNat = 256 ∧ popWord [2, 1, 0, 7] = .ok (word, [7])) ∧
      (popWord [9, 1, 0, 0, 0, 0, 0, 0, 0, 0]).mapError CodecError.ofVarint =
        .error (.conversion "Varint" (.varint .wide)) ∧
      (popWord [9, 0, 1, 0, 0, 0, 0, 0, 0, 0]).mapError CodecError.ofVarint =
        .error (.conversion "Varint" (.varint .leadingZero)) := by
  obtain ⟨puts, reads, wide, refused, -⟩ := word_path_agrees
  refine ⟨puts 0xffffffffffffffff (by decide) [9], ?_, ?_, ?_⟩
  · exact (reads _ _ _).2 ⟨rfl, by decide⟩
  · exact wide _ (2 ^ 64) [] rfl (Nat.le_refl _)
  · exact refused _ .leadingZero rfl

end SchemaWire.Varint
