import SchemaWire.Proofs.Acceptance
import SchemaWire.Proofs.RoundTrip

/-! The limit on nesting cuts off just the values that are deeper.

Writing and reading count levels on their own, the one down the value and the other down the bytes.
Each of them succeeds below any limit that the depth of the value stays within, with the same result
as below any other, and below no smaller limit.
-/

set_option autoImplicit false

namespace SchemaWire.Codec

def limited (codec : Codec) (limit : Nat) : Codec := { codec with maxDepth := limit }

variable {codec : Codec} {room larger limit other : Nat} {type : String} {bytes rest : Bytes}

/-! ## Writing -/

theorem encodeFields_of_parts {second : Codec} {types : List String} {values : List Value}
    (parts : ∀ typed ∈ types.zip values, ∀ {piece},
      encodeAt codec room typed.1 typed.2 = .write piece →
      encodeAt second larger typed.1 typed.2 = .write piece)
    (written : encodeFields codec room types values = .write bytes) :
    encodeFields second larger types values = .write bytes := by
  induction values generalizing types bytes with
  | nil =>
    rw [encodeFields.eq_def] at written ⊢
    exact written
  | cons value values ih =>
    cases types with
    | nil =>
      rw [encodeFields.eq_def] at written ⊢
      exact written
    | cons type types =>
      rw [List.zip_cons_cons, List.forall_mem_cons] at parts
      obtain ⟨piece, back, first, later, rfl⟩ := encodeFields_cons_eq_write_iff.1 written
      exact encodeFields_cons_eq_write_iff.2
        ⟨piece, back, parts.1 first, ih parts.2 later, rfl⟩

theorem encodePayload_of_parts {second : Codec} {definition : Definition} {value : Value}
    (parts : ∀ typed ∈ definition.typedParts value, ∀ {piece},
      encodeAt codec room typed.1 typed.2 = .write piece →
      encodeAt second larger typed.1 typed.2 = .write piece)
    (written : encodePayload codec room definition value = .write bytes) :
    encodePayload second larger definition value = .write bytes := by
  simp only [encodePayload] at written ⊢
  split at written
  · exact written
  · exact written
  · rename_i fields values shape
    split at written
    · rename_i counted
      rw [if_pos counted]
      refine encodeFields_of_parts ?_ written
      rwa [Definition.typedParts_record shape] at parts
    · exact absurd written (Emission.fail_ne_write _)
  · rename_i element items shape
    rw [encodeItems_eq_encodeFields] at written ⊢
    obtain ⟨front, back, count, later, rfl⟩ := Emission.andThen_eq_write_iff.1 written
    refine Emission.andThen_eq_write_iff.2
      ⟨front, back, count, encodeFields_of_parts ?_ later, rfl⟩
    rwa [Definition.typedParts_list shape] at parts
  · exact absurd written (Emission.fail_ne_write _)

theorem encodeAt_limited (value : Value) {room larger : Nat} {type : String} {bytes : Bytes}
    (written : encodeAt (codec.limited other) room type value = .write bytes)
    (shallow : value.depth < larger) :
    encodeAt (codec.limited limit) larger type value = .write bytes := by
  induction value using Value.induction generalizing room larger type bytes with
  | step value payloads parts =>
    obtain ⟨room, definition, rfl, found⟩ := encodeAt_bound written
    cases larger with
    | zero => cases shallow
    | succ larger =>
      have same : (codec.limited limit).types.find? type = some definition := found
      by_cases enum : definition.kind = .enum
      · -- A case is as deep as its payload and has as much room.
        obtain ⟨case, payload, rfl, reference, written⟩ := encodeAt_enum found enum written
        rw [encodeAt_case same enum reference]
        exact payloads case payload rfl written shallow
      · rw [encodeAt_concrete found enum] at written
        rw [encodeAt_concrete same enum]
        obtain ⟨front, back, identified, payload, rfl⟩ := Emission.andThen_eq_write_iff.1 written
        refine Emission.andThen_eq_write_iff.2
          ⟨front, back, identified, encodePayload_of_parts ?_ payload, rfl⟩
        intro typed member piece first
        have part := Definition.snd_mem_parts member
        have deeper := Value.depth_part_lt part
        exact parts typed.2 part first (by omega)

theorem encode_limited_iff {value : Value} :
    (codec.limited limit).encode type value = .ok bytes ↔
      (∃ other, (codec.limited other).encode type value = .ok bytes) ∧ value.depth ≤ limit := by
  constructor
  · intro encoded
    exact ⟨⟨limit, encoded⟩, (limits_of_encode encoded).2.2⟩
  · rintro ⟨⟨other, encoded⟩, shallow⟩
    have written := Emission.result_eq_ok_iff.1 encoded
    exact Emission.result_eq_ok_iff.2 (encodeAt_limited value written (Nat.lt_succ_of_le shallow))

/-! ## Reading -/

section

variable {read reread : String → Bytes → Except CodecError Value}

theorem takeFields_of_parts {index : Nat} {fields : List String} {values : List Value}
    (parts : ∀ value ∈ values, ∀ {field piece}, field ∈ fields → read field piece = .ok value →
      reread field piece = .ok value)
    (taken : takeFields read type index fields bytes = .ok (values, rest)) :
    takeFields reread type index fields bytes = .ok (values, rest) := by
  induction fields generalizing index bytes values with
  | nil => exact taken
  | cons field fields ih =>
    obtain ⟨piece, back, value, later, fits, rfl, first, more, rfl⟩ :=
      takeFields_cons_eq_ok_iff.1 taken
    have first := parts value List.mem_cons_self List.mem_cons_self first
    have more := ih (fun part member _ _ expected =>
      parts part (List.mem_cons_of_mem _ member) (List.mem_cons_of_mem _ expected)) more
    exact takeFields_cons_eq_ok_iff.2 ⟨piece, back, value, later, fits, rfl, first, more, rfl⟩

theorem takePayload_of_parts {definition : Definition} {payload : Value}
    (parts : ∀ part ∈ payload.parts, ∀ {type piece}, type ∈ definition.resolvedReferences →
      read type piece = .ok part → reread type piece = .ok part)
    (taken : takePayload read definition bytes = .ok (payload, rest)) :
    takePayload reread definition bytes = .ok (payload, rest) := by
  simp only [takePayload] at taken ⊢
  split at taken
  · exact taken
  · exact taken
  · simp only [Outcome.bind_eq_ok_iff, Prod.exists, Outcome.pure_eq_ok_iff,
      Prod.mk.injEq] at taken ⊢
    obtain ⟨values, back, fields, rfl, rfl⟩ := taken
    rw [Definition.resolvedReferences_record ‹_›] at parts
    exact ⟨values, back, takeFields_of_parts parts fields, rfl, rfl⟩
  · rename_i element shape
    rw [Definition.resolvedReferences_list shape] at parts
    simp only [Outcome.bind_eq_ok_iff, Prod.exists, reading_eq_ok_iff] at taken ⊢
    obtain ⟨count, back, announced, taken⟩ := taken
    refine ⟨count, back, announced, ?_⟩
    split at taken
    · exact absurd taken (Outcome.throw_ne_ok _ _)
    · rename_i within
      rw [if_neg within]
      simp only [Outcome.bind_eq_ok_iff, Prod.exists, takeItems_eq_ok_iff, Outcome.pure_eq_ok_iff,
        Prod.mk.injEq] at taken ⊢
      obtain ⟨items, back, elements, rfl, rfl⟩ := taken
      refine ⟨items, back, takeFields_of_parts (fun part member _ _ expected => ?_) elements, rfl,
        rfl⟩
      exact parts part member (List.mem_singleton.2 (List.eq_of_mem_replicate expected))
  · cases taken

end

theorem takeAt_limited {value : Value}
    (taken : takeAt (codec.limited other) room type bytes = .ok (value, rest))
    (shallow : value.depth < larger) :
    takeAt (codec.limited limit) larger type bytes = .ok (value, rest) := by
  induction room generalizing larger type bytes value rest with
  | zero => cases taken
  | succ room ih =>
    obtain ⟨word, body, actual, definition, path, payload, bound, rfl, named, found, concrete,
      reached, payloadTaken, rfl⟩ := takeAt_eq_ok_iff.1 taken
    cases larger with
    | zero => cases shallow
    | succ larger =>
      rw [Value.depth_wrap] at shallow
      refine takeAt_eq_ok_iff.2 ⟨word, body, actual, definition, path, payload, bound, rfl, named,
        found, concrete, reached, takePayload_of_parts ?_ payloadTaken, rfl⟩
      -- A part is less deep than the payload, and has a level less to itself.
      intro part member type piece _ read
      have deeper := Value.depth_part_lt member
      exact exactly_eq_ok_iff.2 (ih (exactly_eq_ok_iff.1 read) (by omega))

theorem depth_le_of_decode {value : Value} (decoded : codec.decode type bytes = .ok value) :
    value.depth ≤ codec.maxDepth :=
  (limits_of_encode (encode_of_decode decoded)).2.2

theorem decode_limited_iff {value : Value} :
    (codec.limited limit).decode type bytes = .ok value ↔
      (∃ other, (codec.limited other).decode type bytes = .ok value) ∧ value.depth ≤ limit := by
  constructor
  · intro decoded
    exact ⟨⟨limit, decoded⟩, depth_le_of_decode decoded⟩
  · rintro ⟨⟨other, decoded⟩, shallow⟩
    have taken := exactly_eq_ok_iff.1 decoded
    exact exactly_eq_ok_iff.2 (takeAt_limited taken (Nat.lt_succ_of_le shallow))

/-! ## Reading what was written -/

theorem depthOfParts_canonicalParts {types : Namespace} {fields : List String} {values : List Value}
    (parts : List.Forall₂ (fun type value => (types.canonical type value).depth = value.depth)
      fields values) :
    Value.depthOfParts (types.canonicalParts fields values) = Value.depthOfParts values := by
  induction parts with
  | nil => simp [Namespace.canonicalParts]
  | cons first _ ih =>
    rw [Namespace.canonicalParts, Value.depthOfParts, Value.depthOfParts, ih, ← first]
    rfl

/-- The chains of cases differ in the canonical form, and no level does. -/
theorem depth_canonical {value : Value} (written : encodeAt codec room type value = .write bytes) :
    (codec.types.canonical type value).depth = value.depth := by
  refine encodable_induction (motive := fun type value =>
    (codec.types.canonical type value).depth = value.depth) ?_ written
  intro expected path type definition payload chain _ _ parts
  obtain ⟨found, reached⟩ := Namespace.exists_casePath?_of_caseChain chain
  rw [Namespace.canonical_wrap chain parts.concrete reached, Value.depth_wrap, Value.depth_wrap]
  cases parts with
  | singleton => rfl
  | builtin primitive => rfl
  | record parts => exact depthOfParts_canonicalParts parts
  | list parts => exact depthOfParts_canonicalParts parts

theorem encode_iff_decode_limited {value : Value}
    (numbered : codec.identifiers.size + Identifier.first ≤ UInt64.size)
    (encoded : (codec.limited other).encode type value = .ok bytes)
    (short : bytes.length < UInt64.size) :
    (∃ written, (codec.limited limit).encode type value = .ok written) ↔
      ∃ read, (codec.limited limit).decode type bytes = .ok read := by
  have tableFits : (codec.limited other).identifiers.size + Identifier.first ≤ UInt64.size :=
    numbered
  have decoded := decode_of_encode tableFits encoded short
  have sameDepth := depth_canonical (Emission.result_eq_ok_iff.1 encoded)
  constructor
  · rintro ⟨written, again⟩
    refine ⟨_, decode_limited_iff.2 ⟨⟨other, decoded⟩, ?_⟩⟩
    rw [sameDepth]
    exact (encode_limited_iff.1 again).2
  · rintro ⟨read, again⟩
    refine ⟨bytes, encode_limited_iff.2 ⟨⟨other, encoded⟩, ?_⟩⟩
    -- Under the larger of the two limits the bytes have one value only.
    obtain ⟨found, shallow⟩ := decode_limited_iff.1 again
    have below := depth_le_of_decode decoded
    have first : (codec.limited (max limit other)).decode type bytes = .ok read :=
      decode_limited_iff.2 ⟨found, Nat.le_trans shallow (Nat.le_max_left ..)⟩
    have second := decode_limited_iff.2
      ⟨⟨other, decoded⟩, Nat.le_trans below (Nat.le_max_right limit other)⟩
    rw [second, Except.ok.injEq] at first
    rwa [← sameDepth, first]

/-- Below a limit just those values are read and written that some limit lets through and that are
no deeper. So a larger limit changes no result, and a value can be written under a limit exactly
when its bytes, whatever limit they were written under, can be read. -/
theorem limit_cuts_off_deeper (codec : Codec) (type : String) (limit : Nat) :
    (∀ bytes value, (codec.limited limit).decode type bytes = .ok value ↔
      (∃ other, (codec.limited other).decode type bytes = .ok value) ∧ value.depth ≤ limit) ∧
    (∀ value bytes, (codec.limited limit).encode type value = .ok bytes ↔
      (∃ other, (codec.limited other).encode type value = .ok bytes) ∧ value.depth ≤ limit) ∧
    (∀ larger, limit ≤ larger →
      (∀ bytes value, (codec.limited limit).decode type bytes = .ok value →
        (codec.limited larger).decode type bytes = .ok value) ∧
      ∀ value bytes, (codec.limited limit).encode type value = .ok bytes →
        (codec.limited larger).encode type value = .ok bytes) ∧
    (codec.identifiers.size + Identifier.first ≤ UInt64.size →
      ∀ other value bytes, (codec.limited other).encode type value = .ok bytes →
        bytes.length < UInt64.size →
        ((∃ written, (codec.limited limit).encode type value = .ok written) ↔
          ∃ read, (codec.limited limit).decode type bytes = .ok read)) := by
  refine ⟨fun bytes value => decode_limited_iff, fun value bytes => encode_limited_iff,
    fun larger raised => ⟨fun bytes value decoded => ?_, fun value bytes encoded => ?_⟩,
    fun numbered other value bytes encoded short =>
      encode_iff_decode_limited numbered encoded short⟩
  · obtain ⟨found, shallow⟩ := decode_limited_iff.1 decoded
    exact decode_limited_iff.2 ⟨found, Nat.le_trans shallow raised⟩
  · obtain ⟨found, shallow⟩ := encode_limited_iff.1 encoded
    exact encode_limited_iff.2 ⟨found, Nat.le_trans shallow raised⟩

/-- The three cases around the bit are no level, and the list is one. -/
theorem limit_cuts_off_deeper_signs :
    let sign : Value := .list [.enum "Sign" (.enum "Tag" (.enum "Bit" (.builtin (.bool true))))]
    let bytes : Bytes := [1, 7, 1, 1, 1, 3, 1, 6, 1]
    (signs.limited 5).encode "Bits" sign = .ok bytes ∧
      (∃ read, (signs.limited 1).decode "Bits" bytes = .ok read) ∧
      ¬ ∃ read, (signs.limited 0).decode "Bits" bytes = .ok read := by
  intro sign bytes
  obtain ⟨-, -, raising, -⟩ := limit_cuts_off_deeper signs "Bits" 1
  obtain ⟨-, writing, -, same⟩ := limit_cuts_off_deeper signs "Bits" 0
  have encoded : (signs.limited 1).encode "Bits" sign = .ok bytes := by cbv
  have more := (raising 5 (by decide)).2 sign bytes encoded
  refine ⟨more, ⟨.list [.enum "Tag" (.enum "Bit" (.builtin (.bool true)))], by cbv⟩, fun read => ?_⟩
  obtain ⟨written, encoded⟩ := (same numbered_signs 5 sign bytes more (by decide)).2 read
  exact absurd ((writing sign written).1 encoded).2 (by decide)

end SchemaWire.Codec
