import SchemaWire.Proofs.HexText

/-! Which texts stand for no bytes, and what is said about them.

The digits are counted before any of them is looked at. If their number is even, the first byte that
is no digit is named. A text is refused for one of the two reasons just when it is not the text of
some bytes, up to blanks and the case of letters.
-/

set_option autoImplicit false

namespace SchemaWire.Hex

/-! ## What is written -/

theorem lowerDigits_getElem? {n : Nat} (small : n < 16) : lowerDigits[n]? = some (digit n) := by
  have each : ∀ n : Fin 16, lowerDigits[n.val]? = some (digit n) := by decide
  exact each ⟨n, small⟩

theorem length_encode (bytes : Bytes) : (encode bytes).length = 2 * bytes.length := by
  rw [encode, String.length_ofList]
  exact length_flatMap_pair (fun _ => rfl) bytes

theorem encode_getElem? {bytes : Bytes} {i : Nat} {byte : UInt8} (present : bytes[i]? = some byte) :
    (encode bytes).toList[2 * i]? = lowerDigits[byte.toNat / 16]? ∧
      (encode bytes).toList[2 * i + 1]? = lowerDigits[byte.toNat % 16]? := by
  have byteRange := byte.toNat_lt
  rw [lowerDigits_getElem? (by omega), lowerDigits_getElem? (by omega), encode,
    String.toList_ofList]
  induction bytes generalizing i with
  | nil => cases present
  | cons first bytes ih =>
    rw [List.flatMap_cons, encodeByte]
    cases i with
    | zero =>
      cases Option.some.inj present
      exact ⟨rfl, rfl⟩
    | succ i => exact ih present

theorem exists_flatMap_encodeByte {characters : List Char} (even : characters.length % 2 = 0)
    (digits : ∀ c ∈ characters, c ∈ lowerDigits) :
    ∃ bytes : Bytes, bytes.flatMap encodeByte = characters := by
  induction characters, even using pairs_induction with
  | nil => exact ⟨[], rfl⟩
  | pair high low rest _ ih =>
    obtain ⟨highDigit, lowDigit, others⟩ : high ∈ lowerDigits ∧ low ∈ lowerDigits ∧
        ∀ c ∈ rest, c ∈ lowerDigits := by simpa using digits
    obtain ⟨bytes, same⟩ := ih others
    obtain ⟨upper, upperSmall, rfl⟩ := mem_lowerDigits_iff.1 highDigit
    obtain ⟨lower, lowerSmall, rfl⟩ := mem_lowerDigits_iff.1 lowDigit
    have value : (UInt8.ofNat (upper * 16 + lower)).toNat = upper * 16 + lower :=
      UInt8.toNat_ofNat_of_lt' (by simp only [UInt8.size]; omega)
    have upperHalf : (upper * 16 + lower) / 16 = upper := by omega
    have lowerHalf : (upper * 16 + lower) % 16 = lower := by omega
    refine ⟨UInt8.ofNat (upper * 16 + lower) :: bytes, ?_⟩
    rw [List.flatMap_cons, same, encodeByte, value, upperHalf, lowerHalf]
    rfl

theorem exists_encode_iff {text : String} :
    (∃ bytes, text = encode bytes) ↔
      (∀ c ∈ text.toList, c ∈ lowerDigits) ∧ text.length % 2 = 0 := by
  constructor
  · rintro ⟨bytes, rfl⟩
    constructor
    · intro c member
      rw [encode, String.toList_ofList] at member
      exact mem_lowerDigits_of_mem member
    · rw [length_encode]
      omega
  · rintro ⟨digits, even⟩
    obtain ⟨bytes, same⟩ := exists_flatMap_encodeByte even digits
    exact ⟨bytes, by rw [encode, same, String.ofList_toList]⟩

/-! ## What is refused -/

theorem forall_mem_plain_iff {text : String} :
    (∀ c ∈ (plain text).toList, c ∈ lowerDigits) ↔
      ∀ c ∈ text.toList, isBlankChar c = false → c.toLower ∈ lowerDigits := by
  rw [plain, String.toList_ofList, List.forall_mem_map]
  simp

theorem decode_refused_iff {text : String} :
    (∃ refusal, decode text = .error refusal) ↔
      (∃ c ∈ text.toList, isBlankChar c = false ∧ c.toLower ∉ lowerDigits) ∨
        (plain text).length % 2 = 1 := by
  have accepted : (∃ bytes, decode text = .ok bytes) ↔
      (∀ c ∈ (plain text).toList, c ∈ lowerDigits) ∧ (plain text).length % 2 = 0 := by
    simp only [decode_eq_ok_iff]
    exact exists_encode_iff
  have refused : (∃ refusal, decode text = .error refusal) ↔
      ¬ ∃ bytes, decode text = .ok bytes := by
    cases decode text <;> simp
  rw [refused, accepted, forall_mem_plain_iff, Classical.not_and_iff_not_or_not,
    Nat.mod_two_not_eq_zero]
  simp only [Classical.not_forall, exists_prop]

/-! ## What is said about it -/

def isForeign (byte : UInt8) : Bool := (digitValue? byte).isNone

theorem valueOf_cases (byte : UInt8) :
    (isForeign byte = false ∧ ∃ value, valueOf byte = .ok value) ∨
      isForeign byte = true ∧ valueOf byte = .error (.badDigit byte) := by
  unfold isForeign valueOf
  cases digitValue? byte with
  | some value => exact .inl ⟨rfl, value, rfl⟩
  | none => exact .inr ⟨rfl, rfl⟩

theorem decodePairs_eq_error_iff {digits : Bytes} {refusal : Refusal}
    (even : digits.length % 2 = 0) :
    decodePairs digits = .error refusal ↔
      ∃ byte, digits.find? isForeign = some byte ∧ refusal = .badDigit byte := by
  induction digits, even using pairs_induction with
  | nil => simp [decodePairs]
  | pair high low rest _ ih =>
    rw [decodePairs, List.find?_cons, List.find?_cons]
    rcases valueOf_cases high with ⟨known, value, read⟩ | ⟨foreign, read⟩
    · rcases valueOf_cases low with ⟨lowKnown, lowValue, lowRead⟩ | ⟨lowForeign, lowRead⟩
      · rw [known, lowKnown, read, lowRead, ← ih]
        cases decodePairs rest with
        | error other => rfl
        | ok bytes =>
          constructor
          · intro same
            cases same
          · intro same
            cases same
      · rw [known, lowForeign, read, lowRead]
        simp [bind, Except.bind, eq_comm]
    · rw [foreign, read]
      simp [bind, Except.bind, eq_comm]

/-- Reading counts the bytes of the plain form. -/
theorem length_filter_utf8 (text : String) :
    ((text.toList.flatMap String.utf8EncodeChar).filter (!isBlank ·)).length =
      (plain text).utf8ByteSize := by
  rw [plain, ← String.size_toByteArray, String.toByteArray_ofList, List.utf8Encode,
    List.size_toByteArray, ← plain_utf8, List.length_map]

theorem decode_eq_error_iff {text : String} {refusal : Refusal} :
    decode text = .error refusal ↔
      (plain text).utf8ByteSize % 2 = 1 ∧ refusal = .oddCount (plain text).utf8ByteSize ∨
      (plain text).utf8ByteSize % 2 = 0 ∧ ∃ byte, refusal = .badDigit byte ∧
        (text.toList.flatMap String.utf8EncodeChar).find?
          (fun byte => !isBlank byte && isForeign byte) = some byte := by
  have counted := length_filter_utf8 text
  rw [decode, decodeBytes, counted]
  split
  · rename_i odd
    rw [odd]
    simp [eq_comm]
  · rename_i notOdd
    have even : (plain text).utf8ByteSize % 2 = 0 := by omega
    rw [decodePairs_eq_error_iff (by omega), List.find?_filter, even]
    simp [and_comm]

/-- Bytes are written as two lower-case digits each, and that text is read as these bytes. So is any
text that is the same up to blanks and the case of letters, and no other. A text is refused just
when it has a character that is neither a blank nor a digit, as is any one outside of ASCII, or an
odd number of digits. An odd number of bytes is told without looking at them; otherwise the first
one that is neither a blank nor a digit is named. -/
theorem decode_inverts_encode :
    (∀ bytes, (encode bytes).length = 2 * bytes.length ∧
      (∀ i byte, bytes[i]? = some byte →
        (encode bytes).toList[2 * i]? = lowerDigits[byte.toNat / 16]? ∧
          (encode bytes).toList[2 * i + 1]? = lowerDigits[byte.toNat % 16]?) ∧
      decode (encode bytes) = .ok bytes) ∧
    (∀ text bytes, decode text = .ok bytes ↔ plain text = encode bytes) ∧
    (∀ text, (∃ refusal, decode text = .error refusal) ↔
      (∃ c ∈ text.toList, isBlankChar c = false ∧ c.toLower ∉ lowerDigits) ∨
        (plain text).length % 2 = 1) ∧
    (∀ text, (∃ c ∈ text.toList, 128 ≤ c.toNat) → ∃ refusal, decode text = .error refusal) ∧
    ∀ text refusal, decode text = .error refusal ↔
      (plain text).utf8ByteSize % 2 = 1 ∧ refusal = .oddCount (plain text).utf8ByteSize ∨
      (plain text).utf8ByteSize % 2 = 0 ∧ ∃ byte, refusal = .badDigit byte ∧
        (text.toList.flatMap String.utf8EncodeChar).find?
          (fun byte => !isBlank byte && isForeign byte) = some byte := by
  refine ⟨fun bytes => ⟨length_encode bytes, fun i byte => encode_getElem?, decode_of_encode bytes⟩,
    fun text bytes => decode_eq_ok_iff, fun text => decode_refused_iff, ?_,
    fun text refusal => decode_eq_error_iff⟩
  rintro text ⟨c, member, beyond⟩
  refine decode_refused_iff.2 (.inl ⟨c, member, isBlankChar_of_le beyond, ?_⟩)
  rw [toLower_of_le beyond]
  have ascii : ∀ n : Fin 16, (digit n).toNat < 128 := by decide
  intro inside
  obtain ⟨n, small, rfl⟩ := mem_lowerDigits_iff.1 inside
  exact absurd (ascii ⟨n, small⟩) (Nat.not_lt.2 beyond)

/-- Digits of both cases are read with blanks between any two of them. A character of two bytes is
refused, for its first byte or for their odd number. -/
theorem decode_inverts_encode_mixed :
    let text := "0\t1Ab\r\n 00"
    let bytes : Bytes := [0x01, 0xab, 0x00]
    bytes[1]? = some 0xab ∧ (encode bytes).toList[2]? = some 'a' ∧
      (encode bytes).toList[3]? = some 'b' ∧ decode text = .ok bytes ∧
      (∃ c ∈ "é".toList, 128 ≤ c.toNat) ∧ (∃ refusal, decode "é" = .error refusal) ∧
      decode "é" = .error (.badDigit 0xc3) ∧ decode "é0" = .error (.oddCount 3) := by
  intro text bytes
  obtain ⟨written, read, -, beyond, refused⟩ := decode_inverts_encode
  obtain ⟨high, low⟩ := (written bytes).2.1 1 0xab rfl
  have foreign : ∃ c ∈ "é".toList, 128 ≤ c.toNat := ⟨'é', by decide, by decide⟩
  refine ⟨rfl, high, low, (read text bytes).2 (by decide), foreign, beyond "é" foreign, ?_, ?_⟩
  · exact (refused "é" _).2 (.inr ⟨by decide, 0xc3, rfl, by decide⟩)
  · exact (refused "é0" _).2 (.inl ⟨by decide, by decide⟩)

end SchemaWire.Hex
