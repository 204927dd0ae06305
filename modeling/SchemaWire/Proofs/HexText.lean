import SchemaWire.Hex
import SchemaWire.Proofs.Outcome

/-! Which texts stand for which bytes.

Blanks and the case of letters do not matter. Without them a text stands for bytes just when it is
the text that is written for those bytes. The reader sees the UTF-8 bytes of the text only, and the
bytes of a character outside of ASCII are neither blanks nor digits.
-/

set_option autoImplicit false

namespace SchemaWire.Hex

/-! ## Digits -/

def lowered (byte : UInt8) : UInt8 := if 0x41 ≤ byte ∧ byte ≤ 0x5a then byte + 0x20 else byte

def digitByte (value : UInt8) : UInt8 := if value < 10 then value + 0x30 else value + 0x57

def digitBytes (byte : UInt8) : Bytes := [digitByte (byte / 16), digitByte (byte % 16)]

theorem digitValue?_eq_some_iff {byte value : UInt8} :
    digitValue? byte = some value ↔ value < 16 ∧ lowered byte = digitByte value := by
  have byteRange := byte.toNat_lt
  have valueRange := value.toNat_lt
  simp only [digitValue?, lowered, digitByte, UInt8.le_iff_toNat_le, UInt8.lt_iff_toNat_lt,
    UInt8.reduceToNat]
  repeat' split
  all_goals
    simp only [Option.some.injEq, reduceCtorEq, false_iff, ← UInt8.toNat_inj, UInt8.toNat_add,
      UInt8.toNat_sub, UInt8.reduceToNat]
    omega

theorem valueOf_eq_ok_iff {byte value : UInt8} :
    valueOf byte = .ok value ↔ value < 16 ∧ lowered byte = digitByte value := by
  rw [← digitValue?_eq_some_iff, valueOf]
  split
  · rename_i found
    simp [found]
  · rename_i missing
    simp [missing]

theorem join_eq_iff {high low byte : UInt8} (highSmall : high < 16) (lowSmall : low < 16) :
    high * 16 + low = byte ↔ high = byte / 16 ∧ low = byte % 16 := by
  have byteRange := byte.toNat_lt
  simp only [UInt8.lt_iff_toNat_lt, UInt8.reduceToNat] at highSmall lowSmall
  simp only [← UInt8.toNat_inj, UInt8.toNat_add, UInt8.toNat_mul, UInt8.toNat_div,
    UInt8.toNat_mod, UInt8.reduceToNat]
  omega

theorem halves_lt (byte : UInt8) : byte / 16 < 16 ∧ byte % 16 < 16 := by
  have byteRange := byte.toNat_lt
  simp only [UInt8.lt_iff_toNat_lt, UInt8.toNat_div, UInt8.toNat_mod, UInt8.reduceToNat]
  omega

theorem pairs_induction {α : Type} {motive : (xs : List α) → xs.length % 2 = 0 → Prop}
    (nil : motive [] rfl)
    (pair : ∀ first second rest even, motive rest even →
      motive (first :: second :: rest) ((Nat.add_mod_right rest.length 2).trans even)) :
    ∀ xs even, motive xs even
  | [], _ => nil
  | [_], even => by cases even
  | first :: second :: rest, even =>
    have shorter := (Nat.add_mod_right rest.length 2).symm.trans even
    pair first second rest shorter (pairs_induction nil pair rest shorter)

theorem decodePairs_eq_ok_iff {digits bytes : Bytes} (even : digits.length % 2 = 0) :
    decodePairs digits = .ok bytes ↔ digits.map lowered = bytes.flatMap digitBytes := by
  induction digits, even using pairs_induction generalizing bytes with
  | nil =>
    cases bytes with
    | nil => simp [decodePairs]
    | cons byte bytes => simp [decodePairs, digitBytes]
  | pair high low rest _ ih =>
    simp only [decodePairs, Outcome.bind_eq_ok_iff, valueOf_eq_ok_iff, ih, Outcome.pure_eq_ok_iff]
    constructor
    · rintro ⟨first, ⟨firstSmall, firstSame⟩, second, ⟨secondSmall, secondSame⟩, later, others, rfl⟩
      obtain ⟨firstHalf, secondHalf⟩ := (join_eq_iff firstSmall secondSmall).1 rfl
      rw [List.flatMap_cons, digitBytes, ← firstHalf, ← secondHalf, List.map_cons, List.map_cons,
        firstSame, secondSame, others]
      rfl
    · intro same
      cases bytes with
      | nil => cases same
      | cons byte bytes =>
        obtain ⟨firstSmall, secondSmall⟩ := halves_lt byte
        injection same with firstSame same
        injection same with secondSame others
        exact ⟨_, ⟨firstSmall, firstSame⟩, _, ⟨secondSmall, secondSame⟩, bytes, others,
          congrArg (· :: bytes) ((join_eq_iff firstSmall secondSmall).2 ⟨rfl, rfl⟩)⟩

theorem length_flatMap_pair {α : Type} {pair : UInt8 → List α}
    (two : ∀ byte, (pair byte).length = 2) (bytes : Bytes) :
    (bytes.flatMap pair).length = 2 * bytes.length := by
  induction bytes with
  | nil => rfl
  | cons byte bytes ih =>
    rw [List.flatMap_cons, List.length_append, two, ih, List.length_cons]
    omega

theorem decodeBytes_eq_ok_iff {text bytes : Bytes} :
    decodeBytes text = .ok bytes ↔
      (text.filter (!isBlank ·)).map lowered = bytes.flatMap digitBytes := by
  simp only [decodeBytes]
  split
  · -- Bytes are never an odd number of digits.
    rename_i odd
    refine iff_of_false nofun fun same => ?_
    have counted := congrArg List.length same
    rw [List.length_map, length_flatMap_pair fun _ => rfl] at counted
    omega
  · exact decodePairs_eq_ok_iff (by omega)

/-! ## Characters -/

def isBlankChar (c : Char) : Bool :=
  c == ' ' || c == '\t' || c == '\n' || c == '\x0c' || c == '\r'

/-- Text without its blanks and with its ASCII letters lowered. -/
def plain (text : String) : String :=
  String.ofList ((text.toList.filter (!isBlankChar ·)).map Char.toLower)

theorem utf8EncodeChar_digit {value : UInt8} (small : value < 16) :
    String.utf8EncodeChar (digit value.toNat) = [digitByte value] := by
  have each : ∀ n : Fin 16,
      String.utf8EncodeChar (digit n) = [digitByte (UInt8.ofNat n)] := by decide
  have same := each ⟨value.toNat, UInt8.lt_iff_toNat_lt.1 small⟩
  rwa [UInt8.ofNat_toNat] at same

theorem utf8_digits (bytes : Bytes) :
    (bytes.flatMap encodeByte).flatMap String.utf8EncodeChar = bytes.flatMap digitBytes := by
  have each : ∀ byte, (encodeByte byte).flatMap String.utf8EncodeChar = digitBytes byte := by
    intro byte
    obtain ⟨highSmall, lowSmall⟩ := halves_lt byte
    have high := utf8EncodeChar_digit highSmall
    have low := utf8EncodeChar_digit lowSmall
    simp only [UInt8.toNat_div, UInt8.toNat_mod, UInt8.reduceToNat] at high low
    simp only [encodeByte, List.flatMap_cons, List.flatMap_nil, high, low]
    rfl
  rw [List.flatMap_assoc, funext each]

theorem le_of_mem_utf8EncodeChar {c : Char} (beyond : 128 ≤ c.toNat) :
    ∀ byte ∈ String.utf8EncodeChar c, 128 ≤ byte := by
  intro byte member
  have large : ¬ c.val.toNat ≤ 127 := Nat.not_le_of_lt beyond
  have marked : ∃ n, byte = UInt8.ofNat n ∧ 128 ≤ n ∧ n < 256 := by
    simp only [String.utf8EncodeChar, if_neg large] at member
    repeat' split at member
    all_goals
      simp only [List.mem_cons, List.not_mem_nil, or_false] at member
      rcases member with rfl | rfl | rfl | rfl <;> exact ⟨_, rfl, by omega, by omega⟩
  obtain ⟨n, rfl, least, fits⟩ := marked
  rw [UInt8.le_iff_toNat_le, UInt8.toNat_ofNat_of_lt' fits]
  exact least

theorem isBlank_of_le {byte : UInt8} (beyond : 128 ≤ byte) : isBlank byte = false := by
  simp only [isBlank, Bool.or_eq_false_iff, beq_eq_false_iff_ne]
  refine ⟨⟨⟨⟨?_, ?_⟩, ?_⟩, ?_⟩, ?_⟩
  all_goals
    rintro rfl
    exact absurd beyond (by decide)

theorem lowered_of_le {byte : UInt8} (beyond : 128 ≤ byte) : lowered byte = byte :=
  if_neg fun upper => absurd (UInt8.le_trans beyond upper.2) (by decide)

theorem isBlankChar_of_le {c : Char} (beyond : 128 ≤ c.toNat) : isBlankChar c = false := by
  simp only [isBlankChar, Bool.or_eq_false_iff, beq_eq_false_iff_ne]
  refine ⟨⟨⟨⟨?_, ?_⟩, ?_⟩, ?_⟩, ?_⟩
  all_goals
    rintro rfl
    exact absurd beyond (by decide)

theorem toLower_of_le {c : Char} (beyond : 128 ≤ c.toNat) : c.toLower = c := by
  refine dif_neg fun upper => absurd (UInt32.le_iff_toNat_le.1 upper.2) (Nat.not_le_of_lt ?_)
  exact Nat.lt_of_lt_of_le (by decide) beyond

theorem filter_map_eq_self {α : Type} {leavesOut : α → Bool} {lower : α → α} {xs : List α}
    (same : ∀ x ∈ xs, leavesOut x = false ∧ lower x = x) :
    (xs.filter (!leavesOut ·)).map lower = xs := by
  have kept : xs.filter (!leavesOut ·) = xs :=
    List.filter_eq_self.2 fun x member => by rw [(same x member).1]; rfl
  rw [kept]
  exact (List.map_congr_left fun x member => (same x member).2).trans (List.map_id _)

/-- What reading keeps of the bytes of a character is what plain form keeps of the character. -/
theorem plain_utf8EncodeChar (c : Char) :
    ((String.utf8EncodeChar c).filter (!isBlank ·)).map lowered =
      (([c].filter (!isBlankChar ·)).map Char.toLower).flatMap String.utf8EncodeChar := by
  by_cases ascii : c.toNat < 128
  · have each : ∀ code : Fin 128,
        ((String.utf8EncodeChar (Char.ofNat code)).filter (!isBlank ·)).map lowered =
          (([Char.ofNat code].filter (!isBlankChar ·)).map Char.toLower).flatMap
            String.utf8EncodeChar := by decide
    have same : Char.ofNat c.toNat = c := Char.ofNat_toNat c
    exact same ▸ each ⟨c.toNat, ascii⟩
  · have beyond := Nat.le_of_not_lt ascii
    have bytes := le_of_mem_utf8EncodeChar beyond
    rw [filter_map_eq_self fun byte member =>
      ⟨isBlank_of_le (bytes byte member), lowered_of_le (bytes byte member)⟩]
    simp [isBlankChar_of_le beyond, toLower_of_le beyond]

theorem plain_utf8 (characters : List Char) :
    ((characters.flatMap String.utf8EncodeChar).filter (!isBlank ·)).map lowered =
      ((characters.filter (!isBlankChar ·)).map Char.toLower).flatMap String.utf8EncodeChar := by
  induction characters with
  | nil => rfl
  | cons c characters ih =>
    rw [List.flatMap_cons, List.filter_append, List.map_append, plain_utf8EncodeChar, ih,
      ← List.flatMap_append, ← List.map_append, ← List.filter_append]
    rfl

theorem decode_eq_ok_iff {text : String} {bytes : Bytes} :
    decode text = .ok bytes ↔ plain text = encode bytes := by
  rw [decode, decodeBytes_eq_ok_iff, plain_utf8, ← utf8_digits, plain, encode, ← List.toByteArray_inj,
    ← String.toByteArray_inj, String.toByteArray_ofList, String.toByteArray_ofList]
  rfl

def lowerDigits : List Char := "0123456789abcdef".toList

theorem mem_lowerDigits_iff {c : Char} : c ∈ lowerDigits ↔ ∃ n < 16, digit n = c := by
  have all : lowerDigits = (List.range 16).map digit := by decide
  simp [all]

theorem mem_lowerDigits_of_mem {bytes : Bytes} {c : Char} (member : c ∈ bytes.flatMap encodeByte) :
    c ∈ lowerDigits := by
  obtain ⟨byte, -, member⟩ := List.mem_flatMap.1 member
  have byteRange := byte.toNat_lt
  simp only [encodeByte, List.mem_cons, List.not_mem_nil, or_false] at member
  rcases member with rfl | rfl
  · exact mem_lowerDigits_iff.2 ⟨byte.toNat / 16, by omega, rfl⟩
  · exact mem_lowerDigits_iff.2 ⟨byte.toNat % 16, by omega, rfl⟩

theorem plain_encode (bytes : Bytes) : plain (encode bytes) = encode bytes := by
  have digits : ∀ n : Fin 16, isBlankChar (digit n) = false ∧ (digit n).toLower = digit n := by
    decide
  have written : ∀ c ∈ bytes.flatMap encodeByte, isBlankChar c = false ∧ c.toLower = c := by
    intro c member
    obtain ⟨n, small, rfl⟩ := mem_lowerDigits_iff.1 (mem_lowerDigits_of_mem member)
    exact digits ⟨n, small⟩
  rw [plain, encode, String.toList_ofList, filter_map_eq_self written]

theorem decode_of_encode (bytes : Bytes) : decode (encode bytes) = .ok bytes :=
  decode_eq_ok_iff.2 (plain_encode bytes)

end SchemaWire.Hex
