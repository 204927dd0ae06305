import SchemaWire.Frame.Message
import SchemaWire.Proofs.BigEndian
import SchemaWire.Proofs.Outcome

/-! The header of a message: what its checks let through, and what the writer puts there.

A header says where the payload behind it ends, so that a message is known from its first bytes on.
-/

set_option autoImplicit false

namespace SchemaWire.Message

variable {limit : UInt64} {count : Bytes} {length size : Nat}

/-! ## Checks -/

theorem countLength_eq_ok_iff {first : UInt8} :
    countLength first = .ok length ↔ first.toNat = length ∧ length ≤ maxCountLength := by
  simp only [countLength]
  split
  · rename_i short
    simp only [Except.ok.injEq]
    constructor
    · rintro rfl
      exact ⟨rfl, short⟩
    · exact And.left
  · rename_i long
    simp only [reduceCtorEq, false_iff]
    rintro ⟨rfl, short⟩
    exact long short

theorem payloadSize_eq_ok_iff :
    payloadSize limit count = .ok size ↔ count.toWord.toNat = size ∧ size ≤ limit.toNat := by
  simp only [payloadSize, UInt64.le_iff_toNat_le]
  split
  · rename_i small
    simp only [Except.ok.injEq]
    constructor
    · rintro rfl
      exact ⟨rfl, small⟩
    · exact And.left
  · rename_i large
    simp only [reduceCtorEq, false_iff]
    rintro ⟨rfl, small⟩
    exact large small

theorem eq_of_countLength {first : UInt8} {error : FrameError}
    (refused : countLength first = .error error) : error = .countTooBig first.toNat := by
  simp only [countLength] at refused
  split at refused
  · cases refused
  · exact (Except.error.inj refused).symm

theorem eq_of_payloadSize {error : FrameError} (refused : payloadSize limit count = .error error) :
    error = .payloadTooLarge count.toWord.toNat limit := by
  simp only [payloadSize] at refused
  split at refused
  · cases refused
  · exact (Except.error.inj refused).symm

/-- Under a limit that leaves room for a header, no message is too long to be counted. -/
theorem split?_cons (bounded : limit.toNat ≤ UInt64.size - 10) (first : UInt8) (rest : Bytes) :
    split? limit (first :: rest) =
      ((countLength first).mapError .failed).bind fun length =>
        match splitAt? length rest with
        | none => .ok none
        | some (count, rest) =>
          ((payloadSize limit count).mapError .failed).map fun size => splitAt? size rest := by
  rw [split?]
  cases announced : countLength first with
  | error error => rfl
  | ok length =>
    obtain ⟨_, short⟩ := countLength_eq_ok_iff.1 announced
    simp only [Outcome.mapError_ok, Outcome.ok_bind, Except.bind]
    cases splitAt? length rest with
    | none => rfl
    | some parts =>
      obtain ⟨count, rest⟩ := parts
      dsimp only
      cases measured : payloadSize limit count with
      | error error => rfl
      | ok size =>
        obtain ⟨_, small⟩ := payloadSize_eq_ok_iff.1 measured
        -- A header takes nine bytes at most.
        have room : 1 + length + size < UInt64.size := by
          simp only [maxCountLength, UInt64.size] at *
          omega
        exact if_pos room

/-! ## Buffers -/

variable {buffer : Bytes}

theorem pop_eq_some_iff {payload rest : Bytes} :
    pop limit buffer = (.ok (some payload), rest) ↔
      split? limit buffer = .ok (some (payload, rest)) := by
  simp only [pop]
  split <;> simp_all

theorem pop_eq_none_iff :
    pop limit buffer = (.ok none, buffer) ↔ split? limit buffer = .ok none := by
  simp only [pop]
  split <;> simp_all

theorem pop_eq_error_iff {halt : Halt} :
    pop limit buffer = (.error halt, buffer) ↔ split? limit buffer = .error halt := by
  simp only [pop]
  split <;> simp_all

/-! ## Written headers -/

def countOf (payload : Bytes) : Bytes := (Bytes.ofWord (UInt64.ofNat payload.length)).stripZeros

theorem length_countOf (payload : Bytes) : (countOf payload).length ≤ maxCountLength := by
  rw [countOf, Bytes.stripZeros_ofWord]
  exact Bytes.length_ofNat_word _

theorem encode_eq (payload : Bytes) :
    encode payload = UInt8.ofNat (countOf payload).length :: (countOf payload ++ payload) :=
  rfl

theorem countLength_countOf (payload : Bytes) :
    countLength (UInt8.ofNat (countOf payload).length) = .ok (countOf payload).length := by
  have short := length_countOf payload
  refine countLength_eq_ok_iff.2 ⟨?_, short⟩
  exact UInt8.toNat_ofNat_of_lt' (Nat.lt_of_le_of_lt short (by decide))

theorem payloadSize_countOf {payload : Bytes} (small : payload.length ≤ limit.toNat) :
    payloadSize limit (countOf payload) = .ok payload.length := by
  refine payloadSize_eq_ok_iff.2 ⟨?_, small⟩
  rw [countOf, Bytes.toWord_stripZeros_ofWord]
  exact UInt64.toNat_ofNat_of_lt' (Nat.lt_of_le_of_lt small limit.toNat_lt)

/-! ## Messages -/

inductive Headed (count rest : Bytes) : Bytes → Prop where
  | intro {first : UInt8} :
      first.toNat ≤ maxCountLength → count.length = first.toNat →
      Headed count rest (first :: (count ++ rest))

/-- A payload behind a header that counts it. The count may have zero bytes in front. -/
inductive Framed (payload message : Bytes) : Prop where
  | intro {count : Bytes} :
      Headed count payload message → count.toNat = payload.length → Framed payload message

variable {otherCount rest otherRest payload other message more : Bytes}

theorem Headed.append (headed : Headed count rest message) (more : Bytes) :
    Headed count (rest ++ more) (message ++ more) := by
  obtain ⟨short, counted⟩ := headed
  rw [List.cons_append, List.append_assoc]
  exact .intro short counted

theorem Headed.unique (headed : Headed count rest message)
    (again : Headed otherCount otherRest message) : count = otherCount ∧ rest = otherRest := by
  obtain ⟨-, counted⟩ := headed
  generalize same : _ :: (count ++ rest) = message at again
  obtain ⟨-, otherCounted⟩ := again
  obtain ⟨rfl, behind⟩ := List.cons.inj same
  exact List.append_inj behind (counted.trans otherCounted.symm)

/-- The header decides where a message ends, whatever follows. -/
theorem Framed.unique (framed : Framed payload message) (again : Framed other (message ++ more)) :
    other = payload ∧ more = [] := by
  obtain ⟨headed, sized⟩ := framed
  obtain ⟨otherHeaded, otherSized⟩ := again
  obtain ⟨rfl, rfl⟩ := (headed.append more).unique otherHeaded
  rw [sized, List.length_append] at otherSized
  obtain rfl : more = [] := List.length_eq_zero_iff.1 (by omega)
  exact ⟨List.append_nil payload, rfl⟩

theorem framed_encode (short : payload.length < UInt64.size) : Framed payload (encode payload) := by
  obtain ⟨first, counted⟩ := countLength_eq_ok_iff.1 (countLength_countOf payload)
  rw [encode_eq]
  refine .intro (.intro ?_ first.symm) ?_
  · rwa [first]
  · rw [← Bytes.toNat_toWord counted, countOf, Bytes.toWord_stripZeros_ofWord]
    exact UInt64.toNat_ofNat_of_lt' short

theorem payloadSize_of_toNat (short : count.length ≤ maxCountLength)
    (small : count.toNat ≤ limit.toNat) : payloadSize limit count = .ok count.toNat :=
  payloadSize_eq_ok_iff.2 ⟨Bytes.toNat_toWord short, small⟩

end SchemaWire.Message
