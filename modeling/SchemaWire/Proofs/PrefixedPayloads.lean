import SchemaWire.Proofs.VarintWord

/-! Payloads behind their lengths come apart in one way.

A buffer gives up a payload just when the form of that payload stands in front, and it is left alone
otherwise. So payloads that stand one after another come out in their order, and popping stops in
front of the first bytes that are no such form, however often it is tried again.
-/

set_option autoImplicit false

namespace SchemaWire.Varint

variable {source tail payload rest : Bytes} {payloads others : List Bytes} {refusal : Refusal}

/-! ## Refusals -/

/-- Why bytes are no payload behind its length: there is no length, its digits are cut off or start
with a zero, it is no machine word, or the payload is cut off. -/
inductive Unprefixed : Bytes → Refusal → Prop where
  | missing : Unprefixed [] .missingLength
  | truncated {count : UInt8} {rest : Bytes} :
      rest.length < count.toNat →
      Unprefixed (count :: rest) (.truncated count.toNat rest.length)
  | leadingZero {digits : Bytes} (rest : Bytes) :
      digits.length ≤ maxLength → digits.head? = some 0 →
      Unprefixed (UInt8.ofNat digits.length :: (digits ++ rest)) .leadingZero
  | wide {length : Nat} {form : Bytes} (rest : Bytes) :
      encode length = .ok form → 2 ^ 64 ≤ length → Unprefixed (form ++ rest) .wide
  | beyond {length : Nat} {rest : Bytes} :
      length < 2 ^ 64 → rest.length < length →
      Unprefixed (encodeWord (UInt64.ofNat length) ++ rest) (.lengthBeyond length rest.length)

theorem unprefixed_of_popDigits (failed : popDigits source = .error refusal) :
    Unprefixed source refusal := by
  cases source with
  | nil =>
    cases failed
    exact .missing
  | cons count rest =>
    simp only [popDigits] at failed
    split at failed
    · rename_i cut
      cases failed
      exact .truncated (splitAt?_eq_none_iff.1 cut)
    · rename_i digits rest cut
      split at failed
      · rename_i leading
        cases failed
        obtain ⟨rfl, counted⟩ := splitAt?_eq_some_iff.1 cut
        have bounded := count.toNat_lt
        have announced : UInt8.ofNat digits.length = count := by rw [counted, UInt8.ofNat_toNat]
        rw [← announced]
        exact .leadingZero rest (by rw [counted]; exact Nat.le_of_lt_succ bounded) leading
      · cases failed

theorem unprefixed_of_popLength (failed : popLength source = .error refusal) :
    Unprefixed source refusal := by
  rw [popLength_eq] at failed
  cases read : pop source with
  | error other =>
    rw [read] at failed
    cases failed
    rw [pop, Outcome.bind_eq_error_iff] at read
    rcases read with cut | ⟨_, _, read⟩
    · exact unprefixed_of_popDigits cut
    · exact absurd read (Outcome.pure_ne_error _ _)
  | ok cut =>
    obtain ⟨length, rest⟩ := cut
    rw [read] at failed
    dsimp only at failed
    split at failed
    · cases failed
    · rename_i large
      cases failed
      obtain ⟨form, written, rfl⟩ := pop_eq_ok_iff.1 read
      exact .wide rest written (Nat.le_of_not_lt large)

theorem unprefixed_of_popPrefixed (failed : popPrefixed source = .error refusal) :
    Unprefixed source refusal := by
  rw [popPrefixed, Outcome.bind_eq_error_iff] at failed
  rcases failed with announced | ⟨⟨length, rest⟩, announced, failed⟩
  · exact unprefixed_of_popLength announced
  · obtain ⟨small, rfl⟩ := popLength_eq_ok_iff.1 announced
    dsimp only at failed
    split at failed
    · exact absurd failed (Outcome.pure_ne_error _ _)
    · rename_i cut
      obtain rfl := Outcome.throw_eq_error_iff.1 failed
      exact .beyond small (splitAt?_eq_none_iff.1 cut)

theorem popPrefixed_of_popDigits (failed : popDigits source = .error refusal) :
    popPrefixed source = .error refusal := by
  simp only [popPrefixed, popLength, popWord, failed, Outcome.error_bind]

theorem Unprefixed.refused (unprefixed : Unprefixed source refusal) :
    popPrefixed source = .error refusal := by
  cases unprefixed with
  | missing => rfl
  | truncated short =>
    apply popPrefixed_of_popDigits
    simp only [popDigits, splitAt?_eq_none_iff.2 short]
  | leadingZero rest counted leading =>
    apply popPrefixed_of_popDigits
    simp only [popDigits, toNat_lengthByte counted, splitAt?_append, if_pos leading]
  | @wide length form rest written large =>
    have refused : popLength (form ++ rest) = .error .wide := by
      rw [popLength_eq, pop_eq_ok_iff.2 ⟨form, written, rfl⟩]
      exact if_neg (Nat.not_lt_of_le large)
    rw [popPrefixed, refused, Outcome.error_bind]
  | @beyond length rest small short =>
    rw [popPrefixed, popLength_eq_ok_iff.2 ⟨small, rfl⟩, Outcome.ok_bind]
    dsimp only
    rw [splitAt?_eq_none_iff.2 short]
    rfl

theorem popPrefixed_eq_error_iff :
    popPrefixed source = .error refusal ↔ Unprefixed source refusal :=
  ⟨unprefixed_of_popPrefixed, Unprefixed.refused⟩

theorem unprefixed_iff :
    (∃ refusal, Unprefixed source refusal) ↔
      ¬ ∃ payload rest, payload.length < 2 ^ 64 ∧ source = prefixed payload ++ rest := by
  constructor
  · rintro ⟨refusal, unprefixed⟩ ⟨payload, rest, small, same⟩
    have popped := popPrefixed_eq_ok_iff.2 ⟨small, same⟩
    cases unprefixed.refused.symm.trans popped
  · intro absent
    cases popped : popPrefixed source with
    | error refusal => exact ⟨refusal, unprefixed_of_popPrefixed popped⟩
    | ok cut => exact absurd ⟨cut.1, cut.2, popPrefixed_eq_ok_iff.1 popped⟩ absent

/-! ## One payload after another -/

/-- Try so many times to take a payload off a buffer. Where that is refused the buffer stays as it
is. -/
def popEach : Nat → Bytes → List (Except Refusal Bytes) × Bytes
  | 0, buffer => ([], buffer)
  | count + 1, buffer =>
    match popPrefixed buffer with
    | .ok (payload, rest) =>
      let (later, left) := popEach count rest
      (.ok payload :: later, left)
    | .error refusal =>
      let (later, left) := popEach count buffer
      (.error refusal :: later, left)

theorem popEach_of_ok {count : Nat} (popped : popPrefixed source = .ok (payload, rest)) :
    popEach (count + 1) source =
      (.ok payload :: (popEach count rest).1, (popEach count rest).2) := by
  rw [popEach, popped]

theorem popEach_of_error {count : Nat} (failed : popPrefixed source = .error refusal) :
    popEach (count + 1) source =
      (.error refusal :: (popEach count source).1, (popEach count source).2) := by
  rw [popEach, failed]

theorem popEach_forms (small : ∀ payload ∈ payloads, payload.length < 2 ^ 64) (tail : Bytes)
    (extra : Nat) :
    popEach (payloads.length + extra) (payloads.flatMap prefixed ++ tail) =
      (payloads.map .ok ++ (popEach extra tail).1, (popEach extra tail).2) := by
  induction payloads with
  | nil => simp
  | cons payload payloads ih =>
    obtain ⟨first, later⟩ := List.forall_mem_cons.1 small
    have popped := popPrefixed_eq_ok_iff.2 ⟨first, List.append_assoc (prefixed payload)
      (payloads.flatMap prefixed) tail⟩
    rw [List.length_cons, Nat.add_right_comm, List.flatMap_cons, popEach_of_ok popped, ih later]
    rfl

theorem forms_of_popEach (popped : popEach payloads.length source = (payloads.map .ok, tail)) :
    (∀ payload ∈ payloads, payload.length < 2 ^ 64) ∧
      source = payloads.flatMap prefixed ++ tail := by
  induction payloads generalizing source with
  | nil =>
    cases popped
    exact ⟨nofun, rfl⟩
  | cons payload payloads ih =>
    rw [List.length_cons] at popped
    cases read : popPrefixed source with
    | error refusal =>
      rw [popEach_of_error read] at popped
      cases popped
    | ok cut =>
      obtain ⟨first, rest⟩ := cut
      rw [popEach_of_ok read, List.map_cons, Prod.mk.injEq, List.cons.injEq] at popped
      obtain ⟨⟨same, later⟩, left⟩ := popped
      cases same
      obtain ⟨small, rfl⟩ := popPrefixed_eq_ok_iff.1 read
      obtain ⟨laterSmall, rfl⟩ := ih (Prod.ext later left)
      exact ⟨List.forall_mem_cons.2 ⟨small, laterSmall⟩, (List.append_assoc ..).symm⟩

theorem popEach_refused (unprefixed : Unprefixed tail refusal) (count : Nat) :
    popEach count tail = (List.replicate count (.error refusal), tail) := by
  induction count with
  | zero => rfl
  | succ count ih => rw [popEach_of_error unprefixed.refused, ih, List.replicate_succ]

theorem flatMap_prefixed_inj (small : ∀ payload ∈ payloads, payload.length < 2 ^ 64)
    (otherSmall : ∀ payload ∈ others, payload.length < 2 ^ 64)
    (same : payloads.flatMap prefixed = others.flatMap prefixed) : payloads = others := by
  have first := popEach_forms small [] others.length
  have second := popEach_forms otherSmall [] payloads.length
  rw [same, Nat.add_comm, second] at first
  simp only [popEach_refused .missing, Prod.mk.injEq, and_true] at first
  have taken := congrArg (List.filterMap Except.toOption) first
  simpa [List.filterMap_append, List.filterMap_map, List.filterMap_replicate, Function.comp_def,
    Except.toOption] using taken.symm

/-- A payload comes off the front just when its form stands there. Popping so many times gives so
many payloads and a tail just when the forms of the payloads stand there in front of the tail.
Anything else is refused, for one of five reasons, and is still there after as many attempts as one
likes. So the forms of payloads, written one after another, are the forms of no other payloads. -/
theorem prefixed_uniquely_decodable :
    (∀ payload source rest : Bytes, payload.length < 2 ^ 64 →
      (popPrefixed source = .ok (payload, rest) ↔ source = prefixed payload ++ rest)) ∧
    (∀ (payloads : List Bytes) (source tail : Bytes),
      popEach payloads.length source = (payloads.map .ok, tail) ↔
        (∀ payload ∈ payloads, payload.length < 2 ^ 64) ∧
          source = payloads.flatMap prefixed ++ tail) ∧
    (∀ source : Bytes,
      (¬ ∃ payload rest, payload.length < 2 ^ 64 ∧ source = prefixed payload ++ rest) ↔
        ∃ refusal, Unprefixed source refusal) ∧
    (∀ (source : Bytes) (refusal : Refusal),
      popPrefixed source = .error refusal ↔ Unprefixed source refusal) ∧
    (∀ (payloads : List Bytes) (tail : Bytes) (refusal : Refusal) (extra : Nat),
      (∀ payload ∈ payloads, payload.length < 2 ^ 64) → Unprefixed tail refusal →
        popEach (payloads.length + extra) (payloads.flatMap prefixed ++ tail) =
          (payloads.map .ok ++ List.replicate extra (.error refusal), tail)) ∧
    ∀ payloads others : List Bytes,
      (∀ payload ∈ payloads, payload.length < 2 ^ 64) →
      (∀ payload ∈ others, payload.length < 2 ^ 64) →
      payloads.flatMap prefixed = others.flatMap prefixed → payloads = others := by
  refine ⟨?_, ?_, fun source => unprefixed_iff.symm, fun source refusal => popPrefixed_eq_error_iff,
    ?_, fun payloads others small otherSmall => flatMap_prefixed_inj small otherSmall⟩
  · intro payload source rest small
    rw [popPrefixed_eq_ok_iff]
    exact and_iff_right small
  · intro payloads source tail
    refine ⟨forms_of_popEach, ?_⟩
    rintro ⟨small, rfl⟩
    simpa [popEach] using popEach_forms small tail 0
  · intro payloads tail refusal extra small unprefixed
    rw [popEach_forms small, popEach_refused unprefixed]

/-- Behind two payloads there is a length with nothing behind it. -/
theorem prefixed_uniquely_decodable_pair :
    (popPrefixed [1, 2, 7, 8, 0, 1, 5] = .ok ([7, 8], [0, 1, 5])) ∧
      popEach 3 [1, 2, 7, 8, 0, 1, 5] =
        ([.ok [7, 8], .ok [], .error (.lengthBeyond 5 0)], [1, 5]) ∧
      (∀ others : List Bytes, (∀ payload ∈ others, payload.length < 2 ^ 64) →
        [1, 2, 7, 8, 0] = others.flatMap prefixed → [[7, 8], []] = others) := by
  obtain ⟨pops, -, -, -, runs, unique⟩ := prefixed_uniquely_decodable
  have small : ∀ payload ∈ [[7, 8], ([] : Bytes)], payload.length < 2 ^ 64 := by decide
  refine ⟨(pops [7, 8] _ [0, 1, 5] (by decide)).2 (by decide), ?_, ?_⟩
  · have cut : Unprefixed (encodeWord (UInt64.ofNat 5) ++ []) (.lengthBeyond 5 0) :=
      .beyond (by decide) (by decide)
    exact runs [[7, 8], []] [1, 5] _ 1 small cut
  · intro others otherSmall same
    exact unique _ others small otherSmall same

end SchemaWire.Varint
