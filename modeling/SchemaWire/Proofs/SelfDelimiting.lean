import SchemaWire.Proofs.Canonicity
import SchemaWire.Proofs.Validation

/-! Encodings end by themselves.

A reader other than that of raw bytes looks no further than the end of what it reads, so more input
only makes the rest longer. Raw bytes run to the end of the input. Inside of a record or a list the
length in front of a part gives them an end, so only raw bytes that stand alone are excepted.
-/

set_option autoImplicit false

namespace SchemaWire

/-- The type that the cases around a value of a type lead to. -/
def Value.concreteType (type : String) : Value → String
  | .enum case payload => payload.concreteType case
  | _ => type

/-- Values of a type end by themselves, unless they are raw bytes. -/
def Namespace.Delimited (types : Namespace) (type : String) : Prop :=
  ∀ definition, types.find? type = some definition → definition.shape ≠ .builtin .bytes

theorem Value.concreteType_wrap {definitions : List Definition} {expected type : String}
    {path : List String} (chain : CaseChain definitions expected path type) {payload : Value}
    (concrete : payload.kind ≠ .enum) : (payload.wrap path).concreteType expected = type := by
  induction chain with
  | here type =>
    cases payload with
    | enum case payload => exact absurd rfl concrete
    | _ => rfl
  | step _ _ _ _ ih => exact ih

namespace Codec

variable {codec : Codec} {room : Nat} {type expected : String} {bytes rest : Bytes}
  {read : String → Bytes → Except CodecError Value} {definition : Definition} {payload : Value}

/-! ## Payloads -/

theorem kind_of_takePayload (taken : takePayload read definition bytes = .ok (payload, rest)) :
    payload.kind = definition.kind := by
  simp only [takePayload] at taken
  split at taken
  · rename_i shape
    cases taken
    simp [Definition.kind, shape, Shape.kind, Value.kind]
  · rename_i representation shape
    simp only [Outcome.bind_eq_ok_iff, Outcome.pure_eq_ok_iff, Prod.mk.injEq] at taken
    obtain ⟨_, _, rfl, _⟩ := taken
    simp [Definition.kind, shape, Shape.kind, Value.kind]
  · rename_i fields shape
    simp only [Outcome.bind_eq_ok_iff, Outcome.pure_eq_ok_iff, Prod.mk.injEq] at taken
    obtain ⟨_, _, rfl, _⟩ := taken
    simp [Definition.kind, shape, Shape.kind, Value.kind]
  · rename_i element shape
    simp only [Outcome.bind_eq_ok_iff] at taken
    obtain ⟨_, _, read⟩ := taken
    split at read
    · exact absurd read (Outcome.throw_ne_ok _ _)
    · simp only [Outcome.bind_eq_ok_iff, Outcome.pure_eq_ok_iff, Prod.mk.injEq] at read
      obtain ⟨_, _, rfl, _⟩ := read
      simp [Definition.kind, shape, Shape.kind, Value.kind]
  · cases taken

theorem takeFields_append {index : Nat} {fields : List String} {values : List Value}
    (taken : takeFields read type index fields bytes = .ok (values, rest)) (more : Bytes) :
    takeFields read type index fields (bytes ++ more) = .ok (values, rest ++ more) := by
  induction fields generalizing index bytes values with
  | nil =>
    cases taken
    rfl
  | cons field fields ih =>
    obtain ⟨piece, back, value, later, fits, rfl, first, others, rfl⟩ :=
      takeFields_cons_eq_ok_iff.1 taken
    exact takeFields_cons_eq_ok_iff.2 ⟨piece, back ++ more, value, later, fits,
      List.append_assoc .., first, ih others, rfl⟩

theorem takePayload_append (taken : takePayload read definition bytes = .ok (payload, rest))
    (delimited : definition.shape ≠ .builtin .bytes) (more : Bytes) :
    takePayload read definition (bytes ++ more) = .ok (payload, rest ++ more) := by
  simp only [takePayload] at taken ⊢
  split at taken
  · cases taken
    rfl
  · rename_i representation shape
    simp only [Outcome.bind_eq_ok_iff, Prod.exists, takePrimitive_eq_ok_iff,
      Outcome.pure_eq_ok_iff, Prod.mk.injEq] at taken ⊢
    obtain ⟨primitive, _, ⟨countable, -, front, written, rfl⟩, rfl, rfl⟩ := taken
    have bounded : representation ≠ .bytes := by
      rintro rfl
      exact delimited shape
    exact ⟨primitive, _, ⟨countable, fun raw => absurd raw bounded, front, written,
      List.append_assoc ..⟩, rfl, rfl⟩
  · simp only [Outcome.bind_eq_ok_iff, Prod.exists, Outcome.pure_eq_ok_iff,
      Prod.mk.injEq] at taken ⊢
    obtain ⟨values, _, fields, rfl, rfl⟩ := taken
    exact ⟨values, _, takeFields_append fields more, rfl, rfl⟩
  · simp only [Outcome.bind_eq_ok_iff, Prod.exists, reading_eq_ok_iff,
      Varint.popLength_eq_ok_iff] at taken ⊢
    obtain ⟨count, back, ⟨fits, rfl⟩, taken⟩ := taken
    refine ⟨count, back ++ more, ⟨fits, List.append_assoc ..⟩, ?_⟩
    -- The guard on the count only becomes weaker when there are more bytes.
    split at taken
    · exact absurd taken (Outcome.throw_ne_ok _ _)
    · rename_i within
      rw [if_neg (by rw [List.length_append]; omega)]
      simp only [Outcome.bind_eq_ok_iff, Prod.exists, takeItems_eq_ok_iff, Outcome.pure_eq_ok_iff,
        Prod.mk.injEq] at taken ⊢
      obtain ⟨items, _, elements, rfl, rfl⟩ := taken
      exact ⟨items, _, takeFields_append elements more, rfl, rfl⟩
  · cases taken

/-! ## Values -/

theorem takeAt_identifier {value : Value}
    (taken : takeAt codec room expected bytes = .ok (value, rest)) :
    ∃ word body, bytes = Varint.encodeWord word ++ body ∧
      codec.identifiers.name? word.toNat = some (value.concreteType expected) := by
  cases room with
  | zero => cases taken
  | succ room =>
    obtain ⟨word, body, actual, definition, path, payload, -, rfl, named, -, concrete, reached,
      payloadTaken, rfl⟩ := takeAt_eq_ok_iff.1 taken
    refine ⟨word, body, rfl, ?_⟩
    rwa [Value.concreteType_wrap (Namespace.caseChain_of_casePath? reached)
      (kind_of_takePayload payloadTaken ▸ concrete)]

theorem takeAt_append {value : Value}
    (taken : takeAt codec room expected bytes = .ok (value, rest))
    (delimited : codec.types.Delimited (value.concreteType expected)) (more : Bytes) :
    takeAt codec room expected (bytes ++ more) = .ok (value, rest ++ more) := by
  cases room with
  | zero => cases taken
  | succ room =>
    obtain ⟨word, body, actual, definition, path, payload, bound, rfl, named, found, concrete,
      reached, payloadTaken, rfl⟩ := takeAt_eq_ok_iff.1 taken
    rw [Value.concreteType_wrap (Namespace.caseChain_of_casePath? reached)
      (kind_of_takePayload payloadTaken ▸ concrete)] at delimited
    exact takeAt_eq_ok_iff.2 ⟨word, body ++ more, actual, definition, path, payload, bound,
      List.append_assoc .., named, found, concrete, reached,
      takePayload_append payloadTaken (delimited definition found) more, rfl⟩

/-- Where the input goes on behind a value that ends by itself, the whole of it is no value. -/
theorem decode_append {value : Value} (decoded : codec.decode type bytes = .ok value)
    (delimited : codec.types.Delimited (value.concreteType type)) {more : Bytes}
    (nonempty : more ≠ []) :
    codec.decode type (bytes ++ more) = .error (.conversion type (.trailing more.length)) := by
  have taken := takeAt_append (exactly_eq_ok_iff.1 decoded) delimited more
  rw [List.nil_append] at taken
  have unused : more.isEmpty = false := List.isEmpty_eq_false_iff.2 nonempty
  simp only [decode, take, taken, exactly]
  show (if more.isEmpty = true then _ else _) = _
  rw [unused]
  rfl

theorem concreteType_eq_of_prefix {front back : Bytes} {shorter longer : Value}
    (first : codec.decode type front = .ok shorter)
    (whole : codec.decode type (front ++ back) = .ok longer) :
    shorter.concreteType type = longer.concreteType type := by
  obtain ⟨word, body, rfl, named⟩ := takeAt_identifier (exactly_eq_ok_iff.1 first)
  obtain ⟨longerWord, longerBody, split, longerNamed⟩ :=
    takeAt_identifier (exactly_eq_ok_iff.1 whole)
  have same : word = longerWord := by
    have read := Varint.popWord_eq_ok_iff.2 split
    rw [List.append_assoc, Varint.popWord_eq_ok_iff.2 rfl] at read
    exact congrArg Prod.fst (Except.ok.inj read)
  rw [← same, named, Option.some.injEq] at longerNamed
  exact longerNamed

/-- The bytes of a value that ends by itself neither begin nor continue those of another one, and
reading the value takes just its bytes off the front of any input. -/
theorem decode_self_delimiting (codec : Codec) (type : String) (bytes : Bytes) (value : Value)
    (decoded : codec.decode type bytes = .ok value)
    (delimited : codec.types.Delimited (value.concreteType type)) :
    (∀ front back other, bytes = front ++ back → back ≠ [] →
        codec.decode type front ≠ .ok other) ∧
      (∀ more other, more ≠ [] → codec.decode type (bytes ++ more) ≠ .ok other) ∧
      codec.take type bytes = .ok (value, []) ∧
      ∀ more, codec.take type (bytes ++ more) = .ok (value, more) := by
  have taken := exactly_eq_ok_iff.1 decoded
  refine ⟨?_, ?_, taken, fun more => takeAt_append taken delimited more⟩
  · rintro front back other rfl nonempty shorter
    -- The shorter value has the same concrete type, so it ends by itself as well.
    rw [← concreteType_eq_of_prefix shorter decoded] at delimited
    rw [decode_append shorter delimited nonempty] at decoded
    cases decoded
  · intro more other nonempty longer
    rw [decode_append decoded delimited nonempty] at longer
    cases longer

theorem assign_parcels : IdentifierTable.assign .parcels =
    ⟨["Contents", "Label", "Parcel", "Parcels", "Weight"],
      [("Contents", 6), ("Label", 7), ("Parcel", 8), ("Parcels", 9), ("Weight", 10)],
      by decide, .refl _⟩ := by
  have sorted : Namespace.parcels.names = ["Contents", "Label", "Parcel", "Parcels", "Weight"] := by
    cbv
  simp only [IdentifierTable.assign, sorted]
  rfl

/-- The contents of a parcel end where their length says, so the parcel ends by itself. -/
theorem decode_self_delimiting_parcels :
    let bytes : Bytes := [1, 8, 1, 6, 1, 7, 1, 1, 1, 73, 1, 4, 1, 10, 1, 7, 1, 3, 1, 6, 0xab, 1, 3,
      1, 9, 0]
    let parcel : Value := .record [.builtin (.text "I"), .builtin (.varint 7),
      .builtin (.bytes [0xab]), .list []]
    (ofNamespace .parcels).decode "Parcel" bytes = .ok parcel ∧
      ∀ more, (ofNamespace .parcels).take "Parcel" (bytes ++ more) = .ok (parcel, more) := by
  intro bytes parcel
  have decoded : (ofNamespace .parcels).decode "Parcel" bytes = .ok parcel := by
    rw [ofNamespace, assign_parcels]
    rfl
  refine ⟨decoded, (decode_self_delimiting _ "Parcel" bytes parcel decoded ?_).2.2.2⟩
  intro definition found raw
  have concrete : (Namespace.parcels.find? "Parcel").map (·.kind) = some .record := by decide
  rw [show Namespace.parcels.find? "Parcel" = some definition from found] at concrete
  simp [Definition.kind, raw, Shape.kind] at concrete

end Codec

end SchemaWire
