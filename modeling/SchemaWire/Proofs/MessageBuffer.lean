import SchemaWire.Proofs.MessageFormat

/-! Taking messages off a buffer that fills up over time.

What comes of a buffer only ever waits for more bytes: a message or a refusal stays what it is when
more bytes arrive. So it makes no difference how the bytes of messages are cut into pieces, nor when
messages are asked for.
-/

set_option autoImplicit false

namespace SchemaWire

theorem splitAt?_append_of_eq_some {α : Type} {n : Nat} {xs front rest : List α}
    (cutting : splitAt? n xs = some (front, rest)) (more : List α) :
    splitAt? n (xs ++ more) = some (front, rest ++ more) := by
  obtain ⟨rfl, counted⟩ := splitAt?_eq_some_iff.1 cutting
  exact splitAt?_eq_some_iff.2 ⟨List.append_assoc .., counted⟩

namespace Message

variable {limit : UInt64} {buffer payload rest : Bytes}

/-! ## More bytes -/

theorem fst_pop (limit : UInt64) (buffer : Bytes) :
    (pop limit buffer).1 = (split? limit buffer).map (Option.map Prod.fst) := by
  simp only [pop]
  split <;> simp_all [Except.map]

theorem fst_pop_eq_none_iff : (pop limit buffer).1 = .ok none ↔ split? limit buffer = .ok none := by
  rw [fst_pop]
  cases split? limit buffer with
  | error error => simp [Except.map]
  | ok found => simp [Except.map]

theorem fst_pop_eq_error_iff {halt : Halt} :
    (pop limit buffer).1 = .error halt ↔ split? limit buffer = .error halt := by
  rw [fst_pop]
  cases split? limit buffer with
  | error error => simp [Except.map]
  | ok found => simp [Except.map]

/-- Unless a message is incomplete, more bytes go behind what is left of the buffer. -/
theorem split?_append (bounded : limit.toNat ≤ UInt64.size - 10)
    (settled : split? limit buffer ≠ .ok none) (more : Bytes) :
    split? limit (buffer ++ more) =
      (split? limit buffer).map (Option.map fun parts => (parts.1, parts.2 ++ more)) := by
  cases buffer with
  | nil => exact absurd rfl settled
  | cons first buffer =>
    rw [List.cons_append, split?_cons bounded, split?_cons bounded]
    rw [split?_cons bounded] at settled
    cases announced : countLength first with
    | error error => rfl
    | ok length =>
      simp only [announced, Outcome.mapError_ok, Except.bind] at settled ⊢
      cases header : splitAt? length buffer with
      | none => exact absurd (by rw [header]) settled
      | some parts =>
        obtain ⟨count, body⟩ := parts
        rw [splitAt?_append_of_eq_some header more]
        simp only [header] at settled
        dsimp only
        cases measured : payloadSize limit count with
        | error error => rfl
        | ok size =>
          cases cutting : splitAt? size body with
          | none => exact absurd (by rw [measured]; exact congrArg Except.ok cutting) settled
          | some parts =>
            have longer := splitAt?_append_of_eq_some cutting more
            simp only [Outcome.mapError_ok, Except.map, longer, cutting, Option.map_some]

/-! ## Written messages -/

theorem split?_encode (bounded : limit.toNat ≤ UInt64.size - 10)
    (small : payload.length ≤ limit.toNat) (rest : Bytes) :
    split? limit (encode payload ++ rest) = .ok (some (payload, rest)) := by
  rw [encode_eq, List.cons_append, List.append_assoc, split?_cons bounded]
  simp only [countLength_countOf, Outcome.mapError_ok, Except.bind, splitAt?_append,
    payloadSize_countOf small, Except.map]

theorem split?_encode_ne_none (bounded : limit.toNat ≤ UInt64.size - 10) (payload rest : Bytes) :
    split? limit (encode payload ++ rest) ≠ .ok none := by
  rw [encode_eq, List.cons_append, List.append_assoc, split?_cons bounded]
  simp only [countLength_countOf, Outcome.mapError_ok, Except.bind, splitAt?_append]
  cases measured : payloadSize limit (countOf payload) with
  | error error => exact nofun
  | ok size =>
    -- The count may have lost its upper part, but it never counts more bytes than there are.
    obtain ⟨rfl, _⟩ := payloadSize_eq_ok_iff.1 measured
    rw [countOf, Bytes.toWord_stripZeros_ofWord, UInt64.toNat_ofNat']
    intro incomplete
    have short := splitAt?_eq_none_iff.1 (Except.ok.inj incomplete)
    have counted := Nat.mod_le payload.length UInt64.size
    rw [List.length_append] at short
    simp only [UInt64.size] at *
    omega

theorem split?_of_append_eq_encode (bounded : limit.toNat ≤ UInt64.size - 10)
    (small : payload.length ≤ limit.toNat) {missing : Bytes} (nonempty : missing ≠ [])
    (cut : buffer ++ missing = encode payload) : split? limit buffer = .ok none := by
  refine Decidable.byContradiction fun settled => ?_
  -- What is settled stays so in the whole message, which ends with its payload.
  have longer := split?_append bounded settled missing
  have whole := split?_encode bounded small []
  rw [List.append_nil, ← cut, longer] at whole
  cases outcome : split? limit buffer with
  | error error =>
    rw [outcome] at whole
    cases whole
  | ok found =>
    cases found with
    | none => exact settled outcome
    | some parts =>
      rw [outcome] at whole
      simp [Except.map, nonempty] at whole

/-! ## Steps -/

inductive BufferStep where
  | feed (bytes : Bytes)
  | pop
  deriving DecidableEq, Repr

namespace BufferStep

def fed : List BufferStep → Bytes
  | [] => []
  | .feed bytes :: steps => bytes ++ fed steps
  | .pop :: steps => fed steps

def run (limit : UInt64) :
    List BufferStep → Bytes → List (Except Halt (Option Bytes)) × Bytes
  | [], buffer => ([], buffer)
  | .feed bytes :: steps, buffer => run limit steps (buffer ++ bytes)
  | .pop :: steps, buffer =>
    let (answer, buffer) := Message.pop limit buffer
    let (answers, buffer) := run limit steps buffer
    (answer :: answers, buffer)

def payload? : Except Halt (Option Bytes) → Option Bytes
  | .ok payload => payload
  | .error _ => none

def received (answers : List (Except Halt (Option Bytes))) : List Bytes :=
  answers.filterMap payload?

theorem received_append (front back : List (Except Halt (Option Bytes))) :
    received (front ++ back) = received front ++ received back :=
  List.filterMap_append

theorem fed_append (front back : List BufferStep) :
    fed (front ++ back) = fed front ++ fed back := by
  induction front with
  | nil => rfl
  | cons step front ih =>
    cases step with
    | feed bytes => simp only [List.cons_append, fed, ih, List.append_assoc]
    | pop => exact ih

theorem fed_replicate_pop (calls : Nat) : fed (List.replicate calls .pop) = [] := by
  induction calls with
  | zero => rfl
  | succ calls ih => exact ih

theorem run_append (limit : UInt64) (front back : List BufferStep) (buffer : Bytes) :
    run limit (front ++ back) buffer =
      ((run limit front buffer).1 ++ (run limit back (run limit front buffer).2).1,
        (run limit back (run limit front buffer).2).2) := by
  induction front generalizing buffer with
  | nil => rfl
  | cons step front ih =>
    cases step with
    | feed bytes => exact ih (buffer ++ bytes)
    | pop => simp only [List.cons_append, run, ih]

end BufferStep

/-! ## Messages on their way -/

/-- The buffer and the bytes that are still to come are the messages of the payloads. -/
structure Awaits (limit : UInt64) (payloads : List Bytes) (buffer coming : Bytes) : Prop where
  small : ∀ payload ∈ payloads, payload.length ≤ limit.toNat
  bytes : buffer ++ coming = payloads.flatMap encode

namespace Awaits

variable {payloads : List Bytes} {coming : Bytes}

theorem feed {bytes : Bytes} (awaits : Awaits limit payloads buffer (bytes ++ coming)) :
    Awaits limit payloads (buffer ++ bytes) coming where
  small := awaits.small
  bytes := by rw [List.append_assoc, awaits.bytes]

theorem nil_iff : Awaits limit [] buffer coming ↔ buffer = [] ∧ coming = [] := by
  constructor
  · intro awaits
    exact List.append_eq_nil_iff.1 awaits.bytes
  · rintro ⟨rfl, rfl⟩
    exact ⟨nofun, rfl⟩

theorem pop (bounded : limit.toNat ≤ UInt64.size - 10)
    (awaits : Awaits limit payloads buffer coming) :
    Message.pop limit buffer = (.ok none, buffer) ∨
      ∃ next later rest, payloads = next :: later ∧ buffer = encode next ++ rest ∧
        Message.pop limit buffer = (.ok (some next), rest) ∧ Awaits limit later rest coming := by
  cases payloads with
  | nil =>
    obtain ⟨rfl, _⟩ := nil_iff.1 awaits
    exact .inl rfl
  | cons next later =>
    have small := awaits.small next List.mem_cons_self
    have bytes := awaits.bytes
    rw [List.flatMap_cons] at bytes
    by_cases complete : encode next <+: buffer
    · obtain ⟨rest, rfl⟩ := complete
      rw [List.append_assoc, List.append_cancel_left_eq] at bytes
      refine .inr ⟨next, later, rest, rfl, rfl, ?_, ?_, bytes⟩
      · exact pop_eq_some_iff.2 (split?_encode bounded small rest)
      · exact fun payload member => awaits.small payload (List.mem_cons_of_mem _ member)
    · rcases List.append_eq_append_iff.1 bytes with ⟨missing, whole, _⟩ | ⟨rest, rfl, _⟩
      · refine .inl (pop_eq_none_iff.2
          (split?_of_append_eq_encode bounded small ?_ whole.symm))
        rintro rfl
        exact complete ⟨[], by rw [whole, List.append_nil, List.append_nil]⟩
      · exact absurd (List.prefix_append (encode next) rest) complete

theorem pop_eq_none_iff_incomplete (bounded : limit.toNat ≤ UInt64.size - 10)
    (awaits : Awaits limit payloads buffer coming) :
    (Message.pop limit buffer).1 = .ok none ↔ ∀ payload, ¬ encode payload <+: buffer := by
  constructor
  · rintro waits payload ⟨rest, rfl⟩
    exact split?_encode_ne_none bounded payload rest (fst_pop_eq_none_iff.1 waits)
  · intro incomplete
    rcases awaits.pop bounded with waits | ⟨next, later, rest, -, rfl, -, -⟩
    · rw [waits]
    · exact absurd (List.prefix_append (encode next) rest) (incomplete next)

/-! ## Whole runs -/

/-- What has come off the buffer in the course of steps is the front of the payloads, and the buffer
awaits the others. -/
theorem run (bounded : limit.toNat ≤ UInt64.size - 10) {steps : List BufferStep}
    (awaits : Awaits limit payloads buffer (BufferStep.fed steps ++ coming)) :
    ∃ later, payloads = BufferStep.received (BufferStep.run limit steps buffer).1 ++ later ∧
      (∀ answer ∈ (BufferStep.run limit steps buffer).1, ∃ payload?, answer = .ok payload?) ∧
      Awaits limit later (BufferStep.run limit steps buffer).2 coming := by
  induction steps generalizing payloads buffer with
  | nil => exact ⟨payloads, rfl, nofun, awaits⟩
  | cons step steps ih =>
    cases step with
    | feed bytes =>
      rw [BufferStep.fed, List.append_assoc] at awaits
      exact ih awaits.feed
    | pop =>
      rw [BufferStep.fed] at awaits
      rcases awaits.pop bounded with waits | ⟨next, behind, rest, rfl, -, taken, awaits⟩
      · obtain ⟨later, split, answered, awaits⟩ := ih awaits
        simp only [BufferStep.run, waits]
        refine ⟨later, split, ?_, awaits⟩
        rw [List.forall_mem_cons]
        exact ⟨⟨none, rfl⟩, answered⟩
      · obtain ⟨later, split, answered, awaits⟩ := ih awaits
        simp only [BufferStep.run, taken]
        refine ⟨later, congrArg (next :: ·) split, ?_, awaits⟩
        rw [List.forall_mem_cons]
        exact ⟨⟨some next, rfl⟩, answered⟩

theorem drain (bounded : limit.toNat ≤ UInt64.size - 10)
    (awaits : Awaits limit payloads buffer []) {calls : Nat} (enough : payloads.length ≤ calls) :
    BufferStep.received (BufferStep.run limit (List.replicate calls .pop) buffer).1 = payloads ∧
      (BufferStep.run limit (List.replicate calls .pop) buffer).2 = [] := by
  induction calls generalizing payloads buffer with
  | zero =>
    obtain rfl := List.length_eq_zero_iff.1 (Nat.le_zero.1 enough)
    exact ⟨rfl, (nil_iff.1 awaits).1⟩
  | succ calls ih =>
    simp only [List.replicate_succ, BufferStep.run]
    rcases awaits.pop bounded with waits | ⟨next, later, rest, rfl, -, taken, awaits⟩
    · -- A buffer with all that is to come begins with a message, unless there is none left.
      have none : payloads = [] := by
        cases payloads with
        | nil => rfl
        | cons next later =>
          have incomplete := (awaits.pop_eq_none_iff_incomplete bounded).1 (congrArg Prod.fst waits)
          have bytes := awaits.bytes
          rw [List.append_nil, List.flatMap_cons] at bytes
          exact absurd ⟨_, bytes.symm⟩ (incomplete next)
      subst none
      rw [waits]
      exact ih awaits (Nat.zero_le calls)
    · obtain ⟨received, empty⟩ := ih awaits (Nat.le_of_succ_le_succ enough)
      rw [taken]
      exact ⟨congrArg (next :: ·) received, empty⟩

end Awaits

/-- A buffer keeps its bytes until a message is complete, what comes of it is not changed by more
bytes, and messages come off it in order and in full, however their bytes are cut into pieces and
whenever they are asked for. -/
theorem buffer_delivers (limit : UInt64) (bounded : limit.toNat ≤ UInt64.size - 10) :
    (∀ buffer, (∀ payload, (pop limit buffer).1 ≠ .ok (some payload)) →
      (pop limit buffer).2 = buffer) ∧
    (∀ buffer payload rest more, pop limit buffer = (.ok (some payload), rest) →
      pop limit (buffer ++ more) = (.ok (some payload), rest ++ more)) ∧
    (∀ buffer error more, (pop limit buffer).1 = .error error →
      (pop limit (buffer ++ more)).1 = .error error) ∧
    ∀ payloads steps, (∀ payload ∈ payloads, payload.length ≤ limit.toNat) →
      BufferStep.fed steps = payloads.flatMap encode →
      (∀ front back, steps = front ++ back →
        let (answers, buffer) := BufferStep.run limit front []
        (∀ answer ∈ answers, ∃ payload?, answer = .ok payload?) ∧
          BufferStep.received answers <+: payloads ∧
          ((pop limit buffer).1 = .ok none ↔ ∀ payload, ¬ encode payload <+: buffer)) ∧
      ∀ calls, payloads.length ≤ calls →
        let (answers, buffer) := BufferStep.run limit (steps ++ List.replicate calls .pop) []
        (∀ answer ∈ answers, ∃ payload?, answer = .ok payload?) ∧
          BufferStep.received answers = payloads ∧ buffer = [] := by
  refine ⟨fun buffer incomplete => ?_, fun buffer payload rest more taken => ?_,
    fun buffer error more failed => ?_, fun payloads steps small arriving =>
      ⟨fun front back whole => ?_, fun calls enough => ?_⟩⟩
  · simp only [pop] at incomplete ⊢
    split
    · rfl
    · rfl
    · rename_i complete
      simp [complete] at incomplete
  · have complete := pop_eq_some_iff.1 taken
    rw [pop_eq_some_iff, split?_append bounded (by simp [complete]), complete]
    rfl
  · have refused := fst_pop_eq_error_iff.1 failed
    rw [fst_pop_eq_error_iff, split?_append bounded (by simp [refused]), refused]
    rfl
  · subst whole
    rw [BufferStep.fed_append] at arriving
    have awaits : Awaits limit payloads [] (BufferStep.fed front ++ BufferStep.fed back) :=
      ⟨small, arriving⟩
    obtain ⟨later, split, answered, awaits⟩ := awaits.run bounded
    exact ⟨answered, ⟨later, split.symm⟩, awaits.pop_eq_none_iff_incomplete bounded⟩
  · have awaits : Awaits limit payloads [] (BufferStep.fed steps ++ []) :=
      ⟨small, by rw [List.append_nil]; exact arriving⟩
    -- The calls at the end bring nothing, so no call of the longer run fails either.
    have drained : Awaits limit payloads []
        (BufferStep.fed (steps ++ List.replicate calls .pop) ++ []) := by
      rwa [BufferStep.fed_append, BufferStep.fed_replicate_pop, List.append_nil]
    obtain ⟨_, -, answered, -⟩ := drained.run bounded
    obtain ⟨later, split, -, awaits⟩ := awaits.run bounded
    have fewer : later.length ≤ calls := by
      have counted := congrArg List.length split
      rw [List.length_append] at counted
      omega
    obtain ⟨others, empty⟩ := awaits.drain bounded fewer
    refine ⟨answered, ?_, ?_⟩
    · rw [BufferStep.run_append, BufferStep.received_append, others]
      exact split.symm
    · rw [BufferStep.run_append]
      exact empty

/-- Three messages in four pieces, none of which ends with a message. -/
theorem buffer_delivers_pieces :
    let steps : List BufferStep :=
      [.feed [1], .pop, .feed [2, 7], .pop, .feed [8, 0, 1, 1], .pop, .feed [9]]
    BufferStep.received (BufferStep.run 16 steps []).1 <+: [[7, 8], [], [9]] ∧
      BufferStep.received (BufferStep.run 16 (steps ++ List.replicate 3 .pop) []).1 =
        [[7, 8], [], [9]] := by
  intro steps
  obtain ⟨-, -, -, delivers⟩ := buffer_delivers 16 (by decide)
  obtain ⟨meanwhile, ending⟩ := delivers [[7, 8], [], [9]] steps (by decide) (by decide)
  exact ⟨(meanwhile steps [] (List.append_nil steps).symm).2.1, (ending 3 (by decide)).2.1⟩

end Message

end SchemaWire
