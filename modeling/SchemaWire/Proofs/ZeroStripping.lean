import SchemaWire.Frame.Compression
import SchemaWire.Proofs.BigEndian

/-! Leaving out the zero bytes in front of a payload keeps the number that the payload denotes.

Filling up puts zeros in front again, though not always as many as there were. Both ways only zeros
in front change, so the value stays, and a payload comes back as it was just when it has the length
that filling up leads to.
-/

set_option autoImplicit false

namespace SchemaWire

namespace Bytes

/-! ## Zeros in front -/

theorem toNat_zeros_append (zeros : Nat) (bytes : Bytes) :
    toNat (List.replicate zeros 0 ++ bytes) = toNat bytes := by
  induction zeros with
  | zero => rfl
  | succ zeros ih => rw [List.replicate_succ, List.cons_append, toNat_zero_cons, ih]

theorem stripZeros_zeros_append (zeros : Nat) (bytes : Bytes) :
    stripZeros (List.replicate zeros 0 ++ bytes) = stripZeros bytes := by
  rw [stripZeros_eq_ofNat, stripZeros_eq_ofNat, toNat_zeros_append]

theorem stripZeros_of_head? {bytes : Bytes} (minimal : bytes.head? ≠ some 0) :
    stripZeros bytes = bytes := by
  rw [stripZeros_eq_ofNat, ofNat_toNat minimal]

theorem head?_stripZeros (bytes : Bytes) : (stripZeros bytes).head? ≠ some 0 := by
  rw [stripZeros_eq_ofNat]
  exact head?_ofNat _

theorem exists_zeros (bytes : Bytes) :
    ∃ zeros, bytes = List.replicate zeros 0 ++ stripZeros bytes := by
  induction bytes with
  | nil => exact ⟨0, rfl⟩
  | cons first bytes ih =>
    by_cases zero : first = 0
    · subst zero
      obtain ⟨zeros, shape⟩ := ih
      refine ⟨zeros + 1, ?_⟩
      rw [List.replicate_succ, List.cons_append]
      exact congrArg (List.cons 0) shape
    · refine ⟨0, ?_⟩
      rw [stripZeros_of_head? (by simpa using zero)]
      rfl

end Bytes

namespace Compression

/-! ## Whole words -/

/-- The least positive number of bytes that makes up whole words and holds `size` bytes. -/
structure WordsFor (size total : Nat) : Prop where
  positive : 0 < total
  whole : wordSize ∣ total
  holds : size ≤ total
  least (other : Nat) : 0 < other → wordSize ∣ other → size ≤ other → total ≤ other

theorem WordsFor.unique {size total other : Nat} (words : WordsFor size total)
    (again : WordsFor size other) : total = other := by
  apply Nat.le_antisymm
  · exact words.least other again.positive again.whole again.holds
  · exact again.least total words.positive words.whole words.holds

theorem wordsFor_wordSize {size : Nat} (single : size ≤ wordSize) : WordsFor size wordSize where
  positive := by decide
  whole := Nat.dvd_refl _
  holds := single
  least _ positive whole _ := Nat.le_of_dvd positive whole

theorem wordsFor_gap {size : Nat} (positive : 0 < size) :
    WordsFor size ((wordSize - size % wordSize) % wordSize + size) where
  positive := by omega
  whole := by
    apply Nat.dvd_of_mod_eq_zero
    unfold wordSize
    omega
  holds := by omega
  least other _ whole holds := by
    obtain ⟨words, rfl⟩ := whole
    unfold wordSize at *
    omega

/-! ## Filling up -/

variable {payload : Bytes}

theorem wordsFor_length_fillWords (payload : Bytes) :
    WordsFor payload.length (fillWords payload).length := by
  unfold fillWords
  cases payload with
  | nil => exact wordsFor_wordSize (Nat.zero_le _)
  | cons first payload =>
    rw [List.isEmpty_cons, if_neg Bool.false_ne_true, List.length_append, List.length_replicate]
    exact wordsFor_gap (Nat.succ_pos _)

theorem exists_gap (payload : Bytes) :
    ∃ gap, fillWords payload = List.replicate gap 0 ++ payload := by
  unfold fillWords
  cases payload with
  | nil => exact ⟨wordSize, rfl⟩
  | cons first payload => exact ⟨_, rfl⟩

theorem toNat_fillWords (payload : Bytes) : (fillWords payload).toNat = payload.toNat := by
  obtain ⟨gap, shape⟩ := exists_gap payload
  rw [shape, Bytes.toNat_zeros_append]

theorem stripZeros_fillWords (payload : Bytes) :
    (fillWords payload).stripZeros = payload.stripZeros := by
  obtain ⟨gap, shape⟩ := exists_gap payload
  rw [shape, Bytes.stripZeros_zeros_append]

/-- Only the number of zeros in front can differ, and the lengths tell it. -/
theorem fillWords_stripZeros_eq_iff :
    fillWords payload.stripZeros = payload ↔
      WordsFor payload.stripZeros.length payload.length := by
  have filled := wordsFor_length_fillWords payload.stripZeros
  constructor
  · intro same
    rwa [same] at filled
  · intro words
    obtain ⟨zeros, shape⟩ := Bytes.exists_zeros payload
    obtain ⟨gap, filling⟩ := exists_gap payload.stripZeros
    have lengths := filled.unique words
    have counted := congrArg List.length shape
    rw [filling, List.length_append, List.length_replicate] at lengths
    rw [List.length_append, List.length_replicate] at counted
    have same : gap = zeros := by omega
    rw [filling, same]
    exact shape.symm

/-- Stripping zeros and filling up again keeps the number that a payload denotes and leads to the
least whole number of words, at least one, that holds it. So a payload comes back as it was just
when it has that length, as every single word has; a second time changes nothing more. Whatever has
no zero in front is left over when it has been filled up and stripped. -/
theorem restore_keeps_value (payload : Bytes) :
    let stripped := stripZeros.apply payload
    let restored := stripZeros.restore stripped
    (∃ zeros, payload = List.replicate zeros 0 ++ stripped) ∧ stripped.head? ≠ some 0 ∧
    restored.toNat = payload.toNat ∧
    WordsFor stripped.length restored.length ∧
    (restored = payload ↔ WordsFor stripped.length payload.length) ∧
    (payload.length = 8 → restored = payload) ∧
    stripZeros.apply restored = stripped ∧
    stripZeros.restore (stripZeros.apply restored) = restored ∧
    ∀ word : Bytes, word.head? ≠ some 0 → stripZeros.apply (stripZeros.restore word) = word := by
  have value : payload.stripZeros.toNat = payload.toNat := by
    rw [Bytes.stripZeros_eq_ofNat, Bytes.toNat_ofNat]
  have again : (fillWords payload.stripZeros).stripZeros = payload.stripZeros := by
    rw [stripZeros_fillWords, Bytes.stripZeros_of_head? (Bytes.head?_stripZeros payload)]
  have shorter : payload.stripZeros.length ≤ payload.length := (List.dropWhile_sublist _).length_le
  refine ⟨Bytes.exists_zeros payload, Bytes.head?_stripZeros payload, ?_,
    wordsFor_length_fillWords _, fillWords_stripZeros_eq_iff, ?_, again, congrArg fillWords again,
    ?_⟩
  · exact (toNat_fillWords _).trans value
  · intro single
    apply fillWords_stripZeros_eq_iff.2
    rw [single] at shorter ⊢
    exact wordsFor_wordSize shorter
  · intro word minimal
    exact (stripZeros_fillWords word).trans (Bytes.stripZeros_of_head? minimal)

/-- Of ten bytes nine are zeros, of which two are lost for good; a word of zeros comes back. -/
theorem restore_keeps_value_zeros :
    let payload : Bytes := List.replicate 9 0 ++ [5]
    let zero : Bytes := List.replicate 8 0
    (stripZeros.restore (stripZeros.apply payload)).toNat = 5 ∧
    stripZeros.restore (stripZeros.apply payload) ≠ payload ∧
    zero.length = 8 ∧ stripZeros.restore (stripZeros.apply zero) = zero ∧
    ([7, 0] : Bytes).head? ≠ some 0 ∧
    stripZeros.apply (stripZeros.restore [7, 0]) = [7, 0] := by
  intro payload zero
  obtain ⟨-, -, value, -, same, -⟩ := restore_keeps_value payload
  obtain ⟨-, -, -, -, -, word, -, -, minimal⟩ := restore_keeps_value zero
  refine ⟨value, fun back => ?_, rfl, word rfl, by decide, minimal [7, 0] (by decide)⟩
  have whole := (same.1 back).whole
  exact absurd whole (by decide)

end Compression

end SchemaWire
