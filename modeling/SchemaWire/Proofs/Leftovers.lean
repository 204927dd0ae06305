import SchemaWire.Proofs.Appending
import SchemaWire.Proofs.DepthLimit

/-! What stays on a buffer when a value cannot be written.

Nothing stays before the concrete type has put its identifier there. Its payload leaves what it put
straight onto the buffer, which is the count of a list and the parts that were finished. Of the part
that failed nothing stays, since it was still on the scratch buffer.
-/

set_option autoImplicit false

namespace SchemaWire

namespace Emission

variable {bytes : Bytes} {error : CodecError}

theorem andThen_eq_stop_iff {first : Emission} {next : Unit → Emission} :
    first.andThen next = stop bytes error ↔
      first = stop bytes error ∨
        ∃ front back, first = write front ∧ next () = stop back error ∧ bytes = front ++ back := by
  obtain ⟨written, outcome⟩ := first
  generalize later : next () = second
  obtain ⟨more, secondOutcome⟩ := second
  cases outcome with
  | error other => simp [andThen, stop, write]
  | ok _ => simp [andThen, later, stop, write, eq_comm, and_comm]

theorem write_andThen_eq_stop_iff {front : Bytes} {next : Unit → Emission} :
    (write front).andThen next = stop bytes error ↔
      ∃ back, next () = stop back error ∧ bytes = front ++ back := by
  simp [andThen_eq_stop_iff, write_inj]

theorem prefixed_eq_stop_iff {part : Emission} :
    part.prefixed = stop bytes error ↔ part.result = .error error ∧ bytes = [] := by
  obtain ⟨written, outcome⟩ := part
  cases outcome <;> simp [prefixed, result, Except.map, fail, write, stop, eq_comm, and_comm]

end Emission

namespace Codec

variable {codec : Codec} {type : String} {value : Value} {definition : Definition}
  {error : CodecError} {residue written : Bytes}

/-! ## Parts -/

def encodePart (codec : Codec) (type : String) (part : Value) : Except CodecError Bytes :=
  (encodeAt codec codec.maxDepth type part).result

theorem encodeAt_of_depth_lt {room larger : Nat}
    (put : encodeAt codec room type value = .write written) (shallow : value.depth < larger) :
    encodeAt codec larger type value = .write written :=
  @encodeAt_limited codec codec.maxDepth codec.maxDepth value room larger type written put shallow

theorem encodePart_eq_ok_iff {part : Value} {piece : Bytes} :
    codec.encodePart type part = .ok piece ↔
      codec.encode type part = .ok piece ∧ part.depth < codec.maxDepth := by
  rw [encodePart, encode, Emission.result_eq_ok_iff, Emission.result_eq_ok_iff]
  constructor
  · intro put
    have shallow := (limits_of_encodeAt part put).2.2
    exact ⟨encodeAt_of_depth_lt put (Nat.lt_succ_of_lt shallow), shallow⟩
  · rintro ⟨put, shallow⟩
    exact encodeAt_of_depth_lt put shallow

/-- Parts are written behind their lengths up to the first that fails. -/
def StopsAt (codec : Codec) (parts : List (String × Value)) (error : CodecError)
    (residue : Bytes) : Prop :=
  ∃ before failing after pieces, parts = before ++ failing :: after ∧
    List.Forall₂ (fun part piece => codec.encodePart part.1 part.2 = .ok piece) before pieces ∧
    codec.encodePart failing.1 failing.2 = .error error ∧
    residue = pieces.flatMap Varint.prefixed

theorem not_stopsAt_nil : ¬ StopsAt codec [] error residue := by
  rintro ⟨before, failing, after, -, split, -⟩
  exact absurd split (by simp)

theorem stopsAt_cons_iff {part : String × Value} {parts : List (String × Value)} :
    StopsAt codec (part :: parts) error residue ↔
      codec.encodePart part.1 part.2 = .error error ∧ residue = [] ∨
        ∃ piece back, codec.encodePart part.1 part.2 = .ok piece ∧ StopsAt codec parts error back ∧
          residue = Varint.prefixed piece ++ back := by
  constructor
  · rintro ⟨before, failing, after, pieces, split, finished, failed, rfl⟩
    cases finished with
    | nil =>
      obtain ⟨rfl, rfl⟩ := List.cons.inj split
      exact .inl ⟨failed, rfl⟩
    | @cons _ piece before pieces first later =>
      obtain ⟨rfl, rfl⟩ := List.cons.inj split
      exact .inr ⟨piece, _, first, ⟨before, failing, after, pieces, rfl, later, failed, rfl⟩, rfl⟩
  · rintro (⟨failed, rfl⟩ |
      ⟨piece, _, first, ⟨before, failing, after, pieces, rfl, later, failed, rfl⟩, rfl⟩)
    · exact ⟨[], part, parts, [], rfl, .nil, failed, rfl⟩
    · exact ⟨part :: before, failing, after, piece :: pieces, rfl, .cons first later, failed, rfl⟩

theorem encodeFields_eq_stop_iff {types : List String} {values : List Value} :
    encodeFields codec codec.maxDepth types values = .stop residue error ↔
      StopsAt codec (types.zip values) error residue := by
  induction values generalizing types residue with
  | nil =>
    rw [encodeFields.eq_def, List.zip_nil_right]
    simp [not_stopsAt_nil]
  | cons value values ih =>
    cases types with
    | nil =>
      rw [encodeFields.eq_def, List.zip_nil_left]
      simp [not_stopsAt_nil]
    | cons type types =>
      rw [encodeFields, List.zip_cons_cons, stopsAt_cons_iff, Emission.andThen_eq_stop_iff,
        Emission.prefixed_eq_stop_iff]
      refine or_congr Iff.rfl ?_
      constructor
      · rintro ⟨front, back, first, later, rfl⟩
        obtain ⟨piece, put, rfl⟩ := Emission.prefixed_eq_write_iff.1 first
        exact ⟨piece, back, Emission.result_eq_ok_iff.2 put, ih.1 later, rfl⟩
      · rintro ⟨piece, back, put, later, rfl⟩
        have first := Emission.prefixed_eq_write_iff.2 ⟨piece, Emission.result_eq_ok_iff.1 put, rfl⟩
        exact ⟨_, back, first, ih.2 later, rfl⟩

/-! ## Payloads -/

inductive PayloadLeftover (codec : Codec) (definition : Definition) :
    Value → CodecError → Bytes → Prop where
  | kind {value : Value} :
      value.kind ≠ definition.kind →
      PayloadLeftover codec definition value
        (.conversion definition.name (.wrongKind value.kind definition.kind)) []
  | representation {representation : Representation} {primitive : Primitive} :
      definition.shape = .builtin representation → representation ≠ primitive.representation →
      PayloadLeftover codec definition (.builtin primitive)
        (.conversion definition.name
          (.wrongRepresentation representation primitive.representation)) []
  | tooLong {n : Nat} {number : Varint.TooLong} :
      definition.shape = .builtin .varint → Varint.encode n = .error number →
      PayloadLeftover codec definition (.builtin (.varint n)) (.ofTooLong number) []
  | count {fields : List TypeRef} {values : List Value} :
      definition.shape = .record fields → fields.length ≠ values.length →
      PayloadLeftover codec definition (.record values)
        (.conversion definition.name (.wrongFieldCount fields.length values.length)) []
  | field {fields : List TypeRef} {values : List Value} {error : CodecError} {residue : Bytes} :
      definition.shape = .record fields → fields.length = values.length →
      StopsAt codec (definition.typedParts (.record values)) error residue →
      PayloadLeftover codec definition (.record values) error residue
  | item {element : TypeRef} {items : List Value} {error : CodecError} {residue : Bytes} :
      definition.shape = .list element →
      StopsAt codec (definition.typedParts (.list items)) error residue →
      PayloadLeftover codec definition (.list items) error
        (Varint.encodeWord (UInt64.ofNat items.length) ++ residue)

theorem encodePayload_of_kind_ne {room : Nat} (other : value.kind ≠ definition.kind) :
    encodePayload codec room definition value = wrongKind definition value := by
  cases shape : definition.shape <;> cases value <;>
    simp_all [encodePayload, Definition.kind, Shape.kind, Value.kind]

theorem encodePayload_of_leftover
    (leftover : PayloadLeftover codec definition value error residue) :
    encodePayload codec codec.maxDepth definition value = .stop residue error := by
  cases leftover with
  | kind other => exact encodePayload_of_kind_ne other
  | representation shape other =>
    simp only [encodePayload, shape]
    exact encodePrimitive_eq_stop_iff.2 ⟨.inl ⟨other, rfl⟩, rfl⟩
  | tooLong shape long =>
    simp only [encodePayload, shape]
    exact encodePrimitive_eq_stop_iff.2 ⟨.inr ⟨_, _, rfl, rfl, long, rfl⟩, rfl⟩
  | count shape miscounted =>
    simp only [encodePayload, shape]
    exact if_neg miscounted
  | field shape counted stops =>
    rw [Definition.typedParts_record shape] at stops
    simp only [encodePayload, shape]
    rw [if_pos counted]
    exact encodeFields_eq_stop_iff.2 stops
  | item shape stops =>
    rw [Definition.typedParts_list shape] at stops
    simp only [encodePayload, shape]
    rw [encodeItems_eq_encodeFields]
    exact Emission.write_andThen_eq_stop_iff.2 ⟨_, encodeFields_eq_stop_iff.2 stops, rfl⟩

theorem leftover_of_encodePayload (concrete : definition.kind ≠ .enum)
    (stopped : encodePayload codec codec.maxDepth definition value = .stop residue error) :
    PayloadLeftover codec definition value error residue := by
  by_cases same : value.kind = definition.kind
  · simp only [encodePayload] at stopped
    split at stopped
    · exact absurd stopped (Emission.write_ne_stop _)
    · rename_i representation primitive shape
      obtain ⟨⟨other, rfl⟩ | ⟨n, number, rfl, rfl, long, rfl⟩, rfl⟩ :=
        encodePrimitive_eq_stop_iff.1 stopped
      · exact .representation shape other
      · exact .tooLong shape long
    · rename_i fields values shape
      split at stopped
      · rename_i counted
        refine .field shape counted ?_
        rw [Definition.typedParts_record shape]
        exact encodeFields_eq_stop_iff.1 stopped
      · rename_i miscounted
        obtain ⟨rfl, rfl⟩ := Emission.fail_eq_stop_iff.1 stopped
        exact .count shape miscounted
    · rename_i element items shape
      rw [Emission.write_andThen_eq_stop_iff, encodeItems_eq_encodeFields] at stopped
      obtain ⟨residue, later, rfl⟩ := stopped
      refine .item shape ?_
      rw [Definition.typedParts_list shape]
      exact encodeFields_eq_stop_iff.1 later
    · rename_i value _ _ noSingleton noBuiltin noRecord noList
      -- Every concrete kind has been considered.
      cases shape : definition.shape <;> cases value <;>
        simp_all [Definition.kind, Shape.kind, Value.kind]
  · rw [encodePayload_of_kind_ne same] at stopped
    obtain ⟨rfl, rfl⟩ := Emission.fail_eq_stop_iff.1 stopped
    exact .kind same

/-! ## Values -/

/-- What a value that cannot be written leaves on the buffer, and the error. -/
inductive Leftover (codec : Codec) : String → Value → CodecError → Bytes → Prop where
  | unbound {type : String} {value : Value} :
      codec.types.find? type = none → Leftover codec type value (.unknownType type) []
  | notAnEnum {type : String} {value : Value} {definition : Definition} :
      codec.types.find? type = some definition → definition.kind = .enum → value.kind ≠ .enum →
      Leftover codec type value (.conversion definition.name (.wrongKind value.kind .enum)) []
  | notACase {type case : String} {payload : Value} {definition : Definition} :
      codec.types.find? type = some definition → definition.kind = .enum →
      case ∉ definition.resolvedReferences →
      Leftover codec type (.enum case payload)
        (.conversion definition.name (.notACase case definition.name)) []
  | case {type case : String} {payload : Value} {definition : Definition} {error : CodecError}
      {written : Bytes} :
      codec.types.find? type = some definition → definition.kind = .enum →
      case ∈ definition.resolvedReferences → Leftover codec case payload error written →
      Leftover codec type (.enum case payload) error written
  | unnumbered {type : String} {value : Value} {definition : Definition} :
      codec.types.find? type = some definition → definition.kind ≠ .enum →
      codec.identifiers.identifier? type = none →
      Leftover codec type value (.unknownType type) []
  | payload {type : String} {value : Value} {definition : Definition} {identifier : Identifier}
      {error : CodecError} {residue : Bytes} :
      codec.types.find? type = some definition → definition.kind ≠ .enum →
      codec.identifiers.identifier? type = some identifier →
      PayloadLeftover codec definition value error residue →
      Leftover codec type value error
        (Varint.encodeWord (UInt64.ofNat identifier) ++ residue)

theorem encodeAt_of_leftover (leftover : Leftover codec type value error written) :
    encodeAt codec (codec.maxDepth + 1) type value = .stop written error := by
  induction leftover with
  | unbound missing => exact encodeAt_unbound missing
  | notAnEnum found enum other => exact encodeAt_of_kind_ne found enum other
  | notACase found enum foreign => exact encodeAt_of_foreign_case found enum foreign
  | case found enum reference _ ih => exact (encodeAt_case found enum reference).trans ih
  | unnumbered found concrete missing =>
    rw [encodeAt_concrete found concrete]
    exact Emission.andThen_eq_stop_iff.2
      (.inl (encodeIdentifier_eq_stop_iff.2 ⟨missing, rfl, rfl⟩))
  | payload found concrete numbered leftover =>
    rw [encodeAt_concrete found concrete]
    exact Emission.andThen_eq_stop_iff.2 (.inr ⟨_, _,
      encodeIdentifier_eq_write_iff.2 ⟨_, numbered, rfl⟩,
      encodePayload_of_leftover leftover, rfl⟩)

theorem leftover_of_encodeAt
    (stopped : encodeAt codec (codec.maxDepth + 1) type value = .stop written error) :
    Leftover codec type value error written := by
  -- The induction follows the cases; what happens to parts is known from the payload.
  induction value using Value.induction generalizing type with
  | step value payloads _ =>
    cases found : codec.types.find? type with
    | none =>
      rw [encodeAt_unbound found] at stopped
      obtain ⟨rfl, rfl⟩ := Emission.fail_eq_stop_iff.1 stopped
      exact .unbound found
    | some definition =>
      by_cases enum : definition.kind = .enum
      · by_cases wrapped : value.kind = .enum
        · obtain ⟨case, payload, rfl⟩ := Value.kind_eq_enum_iff.1 wrapped
          by_cases reference : case ∈ definition.resolvedReferences
          · rw [encodeAt_case found enum reference] at stopped
            exact .case found enum reference (payloads case payload rfl stopped)
          · rw [encodeAt_of_foreign_case found enum reference] at stopped
            obtain ⟨rfl, rfl⟩ := Emission.fail_eq_stop_iff.1 stopped
            exact .notACase found enum reference
        · rw [encodeAt_of_kind_ne found enum wrapped] at stopped
          obtain ⟨rfl, rfl⟩ := Emission.fail_eq_stop_iff.1 stopped
          exact .notAnEnum found enum wrapped
      · rw [encodeAt_concrete found enum] at stopped
        rcases Emission.andThen_eq_stop_iff.1 stopped with
          first | ⟨front, residue, first, later, rfl⟩
        · obtain ⟨missing, rfl, rfl⟩ := encodeIdentifier_eq_stop_iff.1 first
          exact .unnumbered found enum missing
        · obtain ⟨identifier, numbered, rfl⟩ := encodeIdentifier_eq_write_iff.1 first
          exact .payload found enum numbered (leftover_of_encodePayload enum later)

theorem encodeInto_eq_iff {buffer : Bytes} {outcome : Except CodecError Unit} :
    codec.encodeInto type value buffer = (outcome, buffer ++ written) ↔
      codec.emit type value = ⟨written, outcome⟩ := by
  rw [encodeInto_eq, Prod.mk.injEq, List.append_cancel_left_eq]
  obtain ⟨more, ended⟩ := codec.emit type value
  rw [Emission.mk.injEq]
  exact And.comm

/-- Encoding onto a buffer appends to it, and neither the outcome nor the bytes that are appended
depend on what it holds. When the value can be written, they are its encoding. When it cannot, they
are what the finished part of it has put there, and none of them is from the part that failed. The
bytes of a finished part are its encoding. -/
theorem encodeInto_leaves_finished_part (codec : Codec) (type : String) (value : Value) :
    (∃ outcome written, ∀ buffer,
      codec.encodeInto type value buffer = (outcome, buffer ++ written)) ∧
    (∀ buffer bytes, codec.encodeInto type value buffer = (.ok (), buffer ++ bytes) ↔
      codec.encode type value = .ok bytes) ∧
    (∀ buffer error written,
      codec.encodeInto type value buffer = (.error error, buffer ++ written) ↔
        Leftover codec type value error written) ∧
    ∀ expected part piece, codec.encodePart expected part = .ok piece ↔
      codec.encode expected part = .ok piece ∧ part.depth < codec.maxDepth := by
  refine ⟨⟨_, _, encodeInto_eq codec type value⟩, fun buffer bytes => ?_,
    fun buffer error written => ?_, fun expected part piece => encodePart_eq_ok_iff⟩
  · exact encodeInto_eq_iff.trans Emission.result_eq_ok_iff.symm
  · exact encodeInto_eq_iff.trans ⟨leftover_of_encodeAt, encodeAt_of_leftover⟩

/-- A parcel within a parcel is too deep here. Of the list that holds it not even the count stays,
since the list is itself a part. -/
example :
    flatParcels.encodeInto "Parcel" (.record [.builtin (.text "Ink"), .builtin (.varint 7),
      .builtin (.bytes []), .list [.record [.builtin (.text "Ink"), .builtin (.varint 7),
        .builtin (.bytes []), .list []]]]) [9] =
    (.error (.conversion "Parcel" (.tooDeep 1)),
      [9, 1, 8, 1, 10, 1, 7, 1, 3, 1, 73, 1, 110, 1, 107, 1, 4, 1, 10, 1, 7, 1, 2, 1, 6]) := by
  cbv

end Codec

end SchemaWire
