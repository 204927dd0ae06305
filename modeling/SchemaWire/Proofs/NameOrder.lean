import SchemaWire.Text.Utf8

/-! The order of names is the order of their UTF-8 bytes.

Of two characters the one with the greater code point has the greater byte at the first place where
their encodings differ. There is such a place, because no encoding begins another one, so whatever
follows the two characters makes no difference.
-/

set_option autoImplicit false

namespace SchemaWire.Bytes

/-! ## Characters -/

theorem ofNat_cons_lt_iff {first second : Nat} {left right : Bytes} (small : first < 256)
    (otherSmall : second < 256) :
    UInt8.ofNat first :: left < UInt8.ofNat second :: right ↔
      first < second ∨ first = second ∧ left < right := by
  rw [List.cons_lt_cons_iff, UInt8.lt_iff_toNat_lt, ← UInt8.toNat_inj,
    UInt8.toNat_ofNat_of_lt' small, UInt8.toNat_ofNat_of_lt' otherSmall]

theorem lt_iff_digits {low high : Nat} :
    low < high ↔ low / 64 < high / 64 ∨ low / 64 = high / 64 ∧ low % 64 < high % 64 := by
  omega

theorem utf8EncodeChar_lt {c d : Char} (below : c < d) (left right : Bytes) :
    String.utf8EncodeChar c ++ left < String.utf8EncodeChar d ++ right := by
  have codes : c.val.toNat < d.val.toNat := below
  have valid : d.val.toNat < 0xd800 ∨ 0xdfff < d.val.toNat ∧ d.val.toNat < 0x110000 := d.valid
  simp only [String.utf8EncodeChar]
  generalize c.val.toNat = low at *
  generalize d.val.toNat = high at *
  -- All digits of the two code points in base 64, the first of them first.
  have digits := codes
  rw [lt_iff_digits, @lt_iff_digits (low / 64), @lt_iff_digits (low / 64 / 64)] at digits
  simp only [Nat.div_div_eq_div_mul, Nat.reduceMul] at digits
  have lowFirst : low / 262144 % 8 = low / 262144 := by omega
  have highFirst : high / 262144 % 8 = high / 262144 := by omega
  -- A longer encoding has a greater first byte; equally long ones are compared digit by digit.
  repeat' split
  all_goals
    simp (disch := omega) only [List.cons_append, List.nil_append, ofNat_cons_lt_iff]
    omega

/-! ## Names -/

theorem ofText_eq (text : String) :
    ofText text = text.toList.flatMap String.utf8EncodeChar := by
  have same : text.toByteArray = (text.toList.flatMap String.utf8EncodeChar).toByteArray := by
    rw [← String.ofList_toList (s := text), String.toByteArray_ofList, String.toList_ofList]
    rfl
  simp [ofText, ByteArray.toList, toListLoop_eq, same]

theorem flatMap_utf8EncodeChar_lt {first second : List Char} (before : first < second) :
    first.flatMap String.utf8EncodeChar < second.flatMap String.utf8EncodeChar := by
  induction before with
  | @nil c rest =>
    -- Every character has a first byte.
    obtain ⟨byte, bytes, shape⟩ := List.exists_cons_of_ne_nil (@String.utf8EncodeChar_ne_nil c)
    rw [List.flatMap_cons, shape]
    exact .nil
  | rel below => exact utf8EncodeChar_lt below _ _
  | cons _ ih => exact List.append_left_lt ih

theorem ofText_lt_ofText_iff {first second : String} :
    ofText first < ofText second ↔ first < second := by
  rw [ofText_eq, ofText_eq]
  refine ⟨fun before => ?_, flatMap_utf8EncodeChar_lt⟩
  -- The other two ways in which the characters can be ordered contradict the order of the bytes.
  rcases Std.lt_trichotomy first second with below | same | above
  · exact below
  · exact absurd (same ▸ before) (List.lt_irrefl _)
  · exact absurd before (List.lt_asymm (flatMap_utf8EncodeChar_lt above))

end SchemaWire.Bytes
