import SchemaWire.CommandLine.Run
import SchemaWire.Proofs.MessageCounting
import SchemaWire.Proofs.MessageQueue
import SchemaWire.Proofs.MessageReading

/-! Input that is exactly one message.

Whatever is not one message within the limit is cut short, has more behind the message, or has a
header that asks for too much. No message has any of these faults, because its header says where it
ends.
-/

set_option autoImplicit false

namespace SchemaWire

namespace Message

/-- What keeps input from being one message within a limit. -/
inductive Malformed (limit : UInt64) (input : Bytes) : Prop where
  | truncated {missing payload : Bytes} :
      missing ≠ [] → Framed payload (input ++ missing) → Malformed limit input
  | countTooBig {first : UInt8} {rest : Bytes} :
      input = first :: rest → maxCountLength < first.toNat → Malformed limit input
  | oversized {count rest : Bytes} :
      Headed count rest input → limit.toNat < count.toNat → Malformed limit input
  | followed {message payload more : Bytes} :
      Framed payload message → input = message ++ more → more ≠ [] → Malformed limit input

variable {limit : UInt64} {count rest payload input : Bytes}

theorem Malformed.not_framed (malformed : Malformed limit input)
    (small : payload.length ≤ limit.toNat) : ¬ Framed payload input := by
  intro framed
  cases malformed with
  | truncated some longer => exact some (framed.unique longer).2
  | countTooBig same long =>
    obtain ⟨⟨short, -⟩, -⟩ := framed
    obtain ⟨rfl, -⟩ := List.cons.inj same
    exact Nat.not_le_of_lt long short
  | oversized headed large =>
    obtain ⟨again, sized⟩ := framed
    obtain ⟨rfl, rfl⟩ := headed.unique again
    exact Nat.not_le_of_lt large (sized ▸ small)
  | followed shorter same some =>
    subst same
    exact some (shorter.unique framed).2

/-! ## Buffers -/

theorem malformed_of_short_payload (headed : Headed count rest input)
    (few : rest.length < count.toNat) : Malformed limit input := by
  have framed : Framed (rest ++ List.replicate (count.toNat - rest.length) 0)
      (input ++ List.replicate (count.toNat - rest.length) 0) := by
    refine .intro (headed.append _) ?_
    rw [List.length_append, List.length_replicate]
    omega
  refine .truncated ?_ framed
  rw [ne_eq, List.replicate_eq_nil_iff]
  omega

theorem malformed_of_short_count {first : UInt8} (short : first.toNat ≤ maxCountLength)
    (few : rest.length < first.toNat) : Malformed limit (first :: rest) := by
  let zeros : Bytes := List.replicate (first.toNat - rest.length) 0
  let payload : Bytes := List.replicate (Bytes.toNat (rest ++ zeros)) 0
  have counted : (rest ++ zeros).length = first.toNat := by
    rw [List.length_append, List.length_replicate]
    omega
  have framed : Framed payload (first :: rest ++ (zeros ++ payload)) := by
    rw [List.cons_append, ← List.append_assoc]
    exact .intro (.intro short counted) List.length_replicate.symm
  refine .truncated (fun none => ?_) framed
  have noZeros := (List.replicate_eq_nil_iff _).1 (List.append_eq_nil_iff.1 none).1
  omega

theorem Headed.exists_framed (headed : Headed count (payload ++ rest) input)
    (counted : payload.length = count.toNat) :
    ∃ message, Framed payload message ∧ input = message ++ rest := by
  obtain @⟨first, short, announced⟩ := headed
  refine ⟨first :: (count ++ payload), .intro (.intro short announced) counted.symm, ?_⟩
  rw [List.cons_append, List.append_assoc]

inductive Splits (limit : UInt64) : Bytes → Except Halt (Option (Bytes × Bytes)) → Prop where
  | message {payload message : Bytes} (rest : Bytes) :
      Framed payload message → payload.length ≤ limit.toNat →
      Splits limit (message ++ rest) (.ok (some (payload, rest)))
  | malformed {buffer : Bytes} {result : Except Halt (Option (Bytes × Bytes))} :
      Malformed limit buffer → (∀ found, result ≠ .ok (some found)) → Splits limit buffer result

theorem splits_split? (bounded : limit.toNat ≤ UInt64.size - 10) (buffer : Bytes) :
    Splits limit buffer (split? limit buffer) := by
  have answers := answers_pop limit buffer
  generalize result : pop limit buffer = answer at answers
  cases answers with
  | empty nothing =>
    subst nothing
    -- The shortest message is the byte zero.
    have header : Headed [] [] [0] := .intro (by decide) rfl
    have longer : Framed [] ([] ++ [0]) := .intro header rfl
    exact .malformed (.truncated (List.cons_ne_nil 0 []) longer) nofun
  | countTooBig shape long =>
    rw [pop_eq_error_iff.1 result]
    exact .malformed (.countTooBig shape long) nofun
  | headerShort shape short few =>
    rw [pop_eq_none_iff.1 result, shape]
    exact .malformed (malformed_of_short_count short few) nofun
  | payloadTooLarge headed large =>
    rw [pop_eq_error_iff.1 result]
    exact .malformed (.oversized headed large) nofun
  | uncountable headed small large =>
    have room := messageSize_lt bounded headed.length_le small
    exact absurd room (Nat.not_lt_of_le large)
  | payloadShort headed _ _ few =>
    rw [pop_eq_none_iff.1 result]
    exact .malformed (malformed_of_short_payload headed (headed.length_lt_iff.1 few)) nofun
  | @message count payload rest headed small _ counted =>
    rw [pop_eq_some_iff.1 result]
    obtain ⟨message, framed, rfl⟩ := headed.exists_framed counted
    exact .message rest framed (counted ▸ small)

end Message

/-! ## The command line -/

namespace CommandLine

open Message

variable {input payload : Bytes}

inductive Unframes (input : Bytes) : Work Bytes → Prop where
  | message {payload : Bytes} :
      Framed payload input → payload.length ≤ defaultLimit.toNat → Unframes input (.ok payload)
  | malformed {failure : Failure} :
      Malformed defaultLimit input → failure.exit = .dataInvalid → Unframes input (.error failure)

theorem unframe_of_ok {after : Source}
    (read : (Source.ofBytes input).readMessage = (.ok payload, after)) :
    unframe input =
      if after.current.length = 0 then .ok payload
      else .error (.inContext .dataInvalid "invalid frame"
        s!"{after.current.length} bytes after the message") := by
  unfold unframe
  split
  · rename_i again
    cases again.symm.trans read
    rfl
  · rename_i again
    cases again.symm.trans read
  · rename_i again
    cases again.symm.trans read

theorem unframe_of_error {cause : FrameError} {after : Source}
    (read : (Source.ofBytes input).readMessage = (.error (.failed cause), after)) :
    unframe input = .error (.ofFrame "invalid frame" cause) := by
  unfold unframe
  split
  · rename_i again
    cases again.symm.trans read
  · rename_i again
    cases again.symm.trans read
    rfl
  · rename_i again
    cases again.symm.trans read

theorem unframes_unframe (input : Bytes) : Unframes input (unframe input) := by
  have bounded : defaultLimit.toNat ≤ UInt64.size - 10 := by decide
  have splits := splits_split? bounded input
  generalize cut : split? defaultLimit input = found at splits
  cases splits with
  | @message payload message rest framed small =>
    have room : payload.length ≤ maxAllocation := Nat.le_trans small (by decide)
    have read : (Source.ofBytes (message ++ rest)).readMessage = (.ok payload, .ofBytes rest) :=
      Source.readFramed_framed framed small room rest
    rw [unframe_of_ok read]
    cases rest with
    | nil =>
      rw [List.append_nil]
      exact .message framed small
    | cons byte rest => exact .malformed (.followed framed rfl (List.cons_ne_nil _ _)) rfl
  | malformed malformed none =>
    have reads : Source.MessageRead defaultLimit (.ofBytes input) (Source.ofBytes input).readMessage :=
      Source.messageRead_readFramed bounded (.ofBytes input)
    have same : (Source.ofBytes input).deliverable = input := List.append_nil input
    generalize read : (Source.ofBytes input).readMessage = result at reads
    cases reads with
    | message _ buffer =>
      rw [same, cut] at buffer
      exact absurd buffer (none _)
    | unallocatable => exact absurd (congrArg Prod.fst read) (Source.readMessage_ne_panic _)
    | countTooBig | payloadTooLarge | stopped =>
      rw [unframe_of_error read]
      exact .malformed malformed rfl

theorem unframe_framed (framed : Framed payload input)
    (small : payload.length ≤ defaultLimit.toNat) : unframe input = .ok payload := by
  have unframes := unframes_unframe input
  generalize unframe input = result at unframes
  cases unframes with
  | message other _ =>
    rw [← List.append_nil input] at other
    rw [(framed.unique other).1]
  | malformed malformed _ => exact absurd framed (malformed.not_framed small)

theorem unframe_malformed (malformed : Malformed defaultLimit input) :
    ∃ failure, unframe input = .error failure ∧ failure.exit = .dataInvalid := by
  have unframes := unframes_unframe input
  generalize unframe input = result at unframes
  cases unframes with
  | message framed small => exact absurd framed (malformed.not_framed small)
  | malformed _ exit => exact ⟨_, rfl, exit⟩

end CommandLine

end SchemaWire
