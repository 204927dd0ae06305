import SchemaWire.Proofs.MessageFormat
import SchemaWire.Proofs.Outcome

/-! Whether a machine word can count the message that a header announces.

The size of a whole message is that of its header and its payload together. A count just below the
greatest word leaves no room for the header, so that the sum wraps and there is a panic; nothing but
the limit keeps such counts out. In every other case a buffer is answered for what it holds.
-/

set_option autoImplicit false

namespace SchemaWire.Message

variable {limit : UInt64} {count rest buffer : Bytes}

/-! ## Sizes -/

def messageSize (count : Bytes) : Nat := 1 + count.length + count.toNat

def messageWord (count : Bytes) : UInt64 := UInt64.ofNat (1 + count.length) + count.toWord

theorem toNat_messageWord (short : count.length ≤ maxCountLength) :
    (messageWord count).toNat = messageSize count % UInt64.size := by
  have header : 1 + count.length < UInt64.size :=
    Nat.lt_of_le_of_lt (Nat.add_le_add_left short 1) (by decide)
  rw [messageWord, UInt64.toNat_add, UInt64.toNat_ofNat_of_lt' header, Bytes.toNat_toWord short]
  rfl

theorem toNat_messageWord_eq_iff (short : count.length ≤ maxCountLength) :
    (messageWord count).toNat = messageSize count ↔ messageSize count < UInt64.size := by
  rw [toNat_messageWord short]
  exact Nat.mod_eq_iff_lt (by decide)

theorem messageSize_lt (bounded : limit.toNat ≤ UInt64.size - 10)
    (short : count.length ≤ maxCountLength) (small : count.toNat ≤ limit.toNat) :
    messageSize count < UInt64.size := by
  unfold messageSize maxCountLength UInt64.size at *
  omega

theorem Headed.length_le (headed : Headed count rest buffer) : count.length ≤ maxCountLength := by
  obtain ⟨short, counted⟩ := headed
  exact counted ▸ short

theorem Headed.length_lt_iff (headed : Headed count rest buffer) :
    buffer.length < messageSize count ↔ rest.length < count.toNat := by
  obtain ⟨_, _⟩ := headed
  rw [messageSize, List.length_cons, List.length_append]
  omega

/-! ## Answers -/

/-- What becomes of asking a buffer for a message: the answer and what stays in the buffer. -/
inductive Answers (limit : UInt64) (buffer : Bytes) :
    Except Halt (Option Bytes) × Bytes → Prop where
  | empty : buffer = [] → Answers limit buffer (.ok none, buffer)
  | countTooBig {first : UInt8} {rest : Bytes} :
      buffer = first :: rest → maxCountLength < first.toNat →
      Answers limit buffer (.error (.failed (.countTooBig first.toNat)), buffer)
  | headerShort {first : UInt8} {rest : Bytes} :
      buffer = first :: rest → first.toNat ≤ maxCountLength → rest.length < first.toNat →
      Answers limit buffer (.ok none, buffer)
  | payloadTooLarge {count rest : Bytes} :
      Headed count rest buffer → limit.toNat < count.toNat →
      Answers limit buffer (.error (.failed (.payloadTooLarge count.toNat limit)), buffer)
  | uncountable {count rest : Bytes} :
      Headed count rest buffer → count.toNat ≤ limit.toNat → UInt64.size ≤ messageSize count →
      Answers limit buffer (.error .panic, buffer)
  | payloadShort {count rest : Bytes} :
      Headed count rest buffer → count.toNat ≤ limit.toNat → messageSize count < UInt64.size →
      buffer.length < messageSize count → Answers limit buffer (.ok none, buffer)
  | message {count payload rest : Bytes} :
      Headed count (payload ++ rest) buffer → count.toNat ≤ limit.toNat →
      messageSize count < UInt64.size → payload.length = count.toNat →
      Answers limit buffer (.ok (some payload), rest)

theorem split?_of_headed (headed : Headed count rest buffer) :
    split? limit buffer = (do
      let size ← (payloadSize limit count).mapError .failed
      if 1 + count.length + size < UInt64.size then return splitAt? size rest
      else throw .panic) := by
  obtain @⟨first, short, counted⟩ := headed
  have announced : countLength first = .ok count.length :=
    countLength_eq_ok_iff.2 ⟨counted.symm, counted ▸ short⟩
  simp only [split?, announced, Outcome.mapError_ok, Outcome.ok_bind, splitAt?_append]

theorem split?_of_small (headed : Headed count rest buffer) (small : count.toNat ≤ limit.toNat) :
    split? limit buffer =
      if messageSize count < UInt64.size then .ok (splitAt? count.toNat rest)
      else .error .panic := by
  rw [split?_of_headed headed, payloadSize_of_toNat headed.length_le small]
  rfl

theorem Headed.payloadSize_of_large (headed : Headed count rest buffer)
    (large : limit.toNat < count.toNat) :
    payloadSize limit count = .error (.payloadTooLarge count.toNat limit) := by
  cases measured : payloadSize limit count with
  | ok size =>
    obtain ⟨rfl, small⟩ := payloadSize_eq_ok_iff.1 measured
    rw [Bytes.toNat_toWord headed.length_le] at small
    exact absurd small (Nat.not_le_of_lt large)
  | error error =>
    rw [eq_of_payloadSize measured, Bytes.toNat_toWord headed.length_le]

theorem split?_of_large (headed : Headed count rest buffer) (large : limit.toNat < count.toNat) :
    split? limit buffer = .error (.failed (.payloadTooLarge count.toNat limit)) := by
  rw [split?_of_headed headed, headed.payloadSize_of_large large]
  rfl

theorem answers_of_headed (headed : Headed count rest buffer) :
    Answers limit buffer (pop limit buffer) := by
  by_cases small : count.toNat ≤ limit.toNat
  · have split := split?_of_small headed small
    by_cases countable : messageSize count < UInt64.size
    · rw [if_pos countable] at split
      unfold pop
      rw [split]
      cases cut : splitAt? count.toNat rest with
      | none =>
        have few := splitAt?_eq_none_iff.1 cut
        exact .payloadShort headed small countable (headed.length_lt_iff.2 few)
      | some parts =>
        obtain ⟨payload, rest⟩ := parts
        obtain ⟨rfl, counted⟩ := splitAt?_eq_some_iff.1 cut
        exact .message headed small countable counted
    · rw [if_neg countable] at split
      rw [pop_eq_error_iff.2 split]
      exact .uncountable headed small (Nat.le_of_not_lt countable)
  · have large := Nat.lt_of_not_le small
    rw [pop_eq_error_iff.2 (split?_of_large headed large)]
    exact .payloadTooLarge headed large

theorem answers_pop (limit : UInt64) (buffer : Bytes) :
    Answers limit buffer (pop limit buffer) := by
  cases buffer with
  | nil => exact .empty rfl
  | cons first rest =>
    by_cases short : first.toNat ≤ maxCountLength
    · have announced : countLength first = .ok first.toNat :=
        countLength_eq_ok_iff.2 ⟨rfl, short⟩
      cases cut : splitAt? first.toNat rest with
      | none =>
        have split : split? limit (first :: rest) = .ok none := by
          simp only [split?, announced, Outcome.mapError_ok, Outcome.ok_bind, cut]
          rfl
        rw [pop_eq_none_iff.2 split]
        exact .headerShort rfl short (splitAt?_eq_none_iff.1 cut)
      | some parts =>
        obtain ⟨count, behind⟩ := parts
        obtain ⟨rfl, counted⟩ := splitAt?_eq_some_iff.1 cut
        exact answers_of_headed (.intro short counted)
    · have split : split? limit (first :: rest) = .error (.failed (.countTooBig first.toNat)) := by
        simp only [split?, countLength, if_neg short]
        rfl
      rw [pop_eq_error_iff.2 split]
      exact .countTooBig rfl (Nat.lt_of_not_le short)

theorem fst_pop_eq_panic_iff :
    (pop limit buffer).1 = .error .panic ↔
      ∃ count rest, Headed count rest buffer ∧ count.toNat ≤ limit.toNat ∧
        UInt64.size ≤ messageSize count := by
  constructor
  · intro failed
    have answers := answers_pop limit buffer
    generalize pop limit buffer = answer at answers failed
    cases answers with
    | uncountable headed small large => exact ⟨_, _, headed, small, large⟩
    | _ => cases failed
  · intro ⟨count, rest, headed, small, large⟩
    have split := split?_of_small headed small
    rw [if_neg (Nat.not_lt_of_le large)] at split
    rw [pop_eq_error_iff.2 split]

/-- Every buffer is answered for what it holds unless the message it announces cannot be counted.
Then there is a panic, and that comes about just when the sum of header and payload wraps, so never
under a limit that leaves room for a header. -/
theorem pop_answers_iff (limit : UInt64) (buffer : Bytes) :
    Answers limit buffer (pop limit buffer) ∧
    ((pop limit buffer).1 ≠ .error .panic ↔
      ∀ count rest, Headed count rest buffer → count.toNat ≤ limit.toNat →
        (messageWord count).toNat = messageSize count) ∧
    (limit.toNat ≤ UInt64.size - 10 → (pop limit buffer).1 ≠ .error .panic) := by
  have counted : (pop limit buffer).1 ≠ .error .panic ↔
      ∀ count rest, Headed count rest buffer → count.toNat ≤ limit.toNat →
        (messageWord count).toNat = messageSize count := by
    constructor
    · intro answered count rest headed small
      rw [toNat_messageWord_eq_iff headed.length_le]
      apply Nat.lt_of_not_le
      intro large
      exact answered (fst_pop_eq_panic_iff.2 ⟨count, rest, headed, small, large⟩)
    · intro exact failed
      obtain ⟨count, rest, headed, small, large⟩ := fst_pop_eq_panic_iff.1 failed
      have fits := (toNat_messageWord_eq_iff headed.length_le).1 (exact count rest headed small)
      exact Nat.not_lt_of_le large fits
  refine ⟨answers_pop limit buffer, counted, fun bounded => counted.2 ?_⟩
  intro count rest headed small
  rw [toNat_messageWord_eq_iff headed.length_le]
  exact messageSize_lt bounded headed.length_le small

/-- A limit that leaves just enough room for the header, and a count as great as the limit. -/
theorem pop_answers_iff_room :
    let limit : UInt64 := UInt64.ofNat (UInt64.size - 10)
    let count : Bytes := List.replicate 7 255 ++ [246]
    let buffer : Bytes := 8 :: count
    limit.toNat ≤ UInt64.size - 10 ∧ Headed count [] buffer ∧ count.toNat ≤ limit.toNat ∧
    (messageWord count).toNat = messageSize count ∧ messageSize count = UInt64.size - 1 ∧
    Answers limit buffer (pop limit buffer) ∧ pop limit buffer = (.ok none, buffer) := by
  intro limit count buffer
  have headed : Headed count [] buffer := .intro (by decide) rfl
  obtain ⟨answers, counted, room⟩ := pop_answers_iff limit buffer
  have exact := counted.1 (room (by decide)) count [] headed (by decide)
  exact ⟨by decide, headed, by decide, exact, by decide, answers, by rfl⟩

/-- Under the greatest limit the greatest count leaves no room for its header. The sum wraps to less
than the nine bytes that are there, and they are not taken for the beginning of a message. -/
theorem greatest_count_wraps :
    let limit : UInt64 := UInt64.ofNat (UInt64.size - 1)
    let count : Bytes := List.replicate 8 255
    let buffer : Bytes := 8 :: count
    Headed count [] buffer ∧ payloadSize limit count = .ok (UInt64.size - 1) ∧
    messageSize count = UInt64.size + 8 ∧ (messageWord count).toNat = 8 ∧
    buffer.length < messageSize count ∧ ¬ buffer.length < (messageWord count).toNat ∧
    pop limit buffer ≠ (.ok none, buffer) ∧
    pop limit buffer = (.error .panic, buffer) := by
  intro limit count buffer
  have headed : Headed count [] buffer := .intro (by decide) rfl
  have failed : pop limit buffer = (.error .panic, buffer) := by rfl
  refine ⟨headed, by rfl, by decide, by decide, by decide, by decide, ?_, failed⟩
  rw [failed]
  intro same
  cases same

end SchemaWire.Message
