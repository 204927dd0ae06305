import SchemaWire.Proofs.SelfReference

/-! The order of definitions never matters.

Definitions given in another order are bound to the same names, only arranged otherwise. What is
listed, numbered, checked, written or read is the same for all arrangements of a namespace.
-/

set_option autoImplicit false

namespace SchemaWire.Namespace

variable {types other : Namespace}

/-! ## Arrangements of one namespace -/

theorem Same.respelled (same : types.Same other) : Respelled types other.spelledOut where
  find? name := by rw [find?_spelledOut, same.find?]
  casePath? expected target := by rw [casePath?_spelledOut, same.casePath?]

/-- What a namespace lists, numbers and reports, and what is written and read by its types. -/
structure Alike (types other : Namespace) : Prop where
  names : types.names = other.names
  ordered : types.ordered = other.ordered
  render : types.render = other.render
  assign : IdentifierTable.assign types = .assign other
  validate : types.validate = other.validate
  encode (table : IdentifierTable) (maxDepth : Nat) (type : String) (value : Value) :
    Codec.encode ⟨types, table, maxDepth⟩ type value =
      Codec.encode ⟨other, table, maxDepth⟩ type value
  decode (table : IdentifierTable) (maxDepth : Nat) (type : String) (bytes : Bytes) :
    Codec.decode ⟨types, table, maxDepth⟩ type bytes =
      Codec.decode ⟨other, table, maxDepth⟩ type bytes
  jsonOfValue (type : String) (value : Value) :
    types.jsonOfValue type value = other.jsonOfValue type value
  valueOfJson (type : String) (json : Json) :
    types.valueOfJson type json = other.valueOfJson type json

/-- Both arrangements give the results of the one in which self references are spelled out. -/
theorem Same.alike (same : types.Same other) : Alike types other where
  names := same.names
  ordered := same.ordered
  render := same.render
  assign := same.assign
  validate := same.validate
  encode _ _ type value := by
    rw [← Codec.encode_of_respelled same.respelled,
      Codec.encode_of_respelled other.respelled_spelledOut]
  decode _ _ type bytes := by
    rw [← Codec.decode_of_respelled same.respelled,
      Codec.decode_of_respelled other.respelled_spelledOut]
  jsonOfValue type value := by
    rw [← same.respelled.jsonOfValue, other.respelled_spelledOut.jsonOfValue]
  valueOfJson type json := by
    rw [← same.respelled.valueOfJson, other.respelled_spelledOut.valueOfJson]

/-- Definitions can be bound in another order or in neither, and to the same names. However the
definitions are arranged that were bound in either order, the same is listed, numbered and printed,
the same name is reported when one is not bound, and values are written and read alike. -/
theorem build_ignores_order (definitions reordered : List Definition)
    (perm : definitions.Perm reordered) :
    ((∃ types, build definitions = .ok types) ↔ ∃ other, build reordered = .ok other) ∧
    ∀ types other, build definitions = .ok types → build reordered = .ok other →
      types.Same other ∧
      ∀ left right, left.Same types → right.Same other →
        left.names = (definitions.map (·.name)).mergeSort (· ≤ ·) ∧ Alike left right := by
  constructor
  · rw [exists_build_iff, exists_build_iff]
    exact ⟨fun bindable => bindable.of_perm perm, fun bindable => bindable.of_perm perm.symm⟩
  · intro types other built rebuilt
    have held := perm_of_build built
    have same : types.Same other := held.trans (perm.trans (perm_of_build rebuilt).symm)
    refine ⟨same, fun left right leftSame rightSame => ⟨?_, Same.alike ?_⟩⟩
    · exact names_eq_mergeSort (leftSame.trans held)
    · exact leftSame.trans (same.trans rightSame.symm)

/-- The bits may stand in front of the bit, and what they lack is found either way. -/
theorem build_ignores_order_bits :
    let bit : Definition := ⟨"Bit", .builtin .bool⟩
    let bits : Definition := ⟨"Bits", .record [.named "Bit", .named "Ghost"]⟩
    ∃ types other, build [bits, bit] = .ok types ∧ build [bit, bits] = .ok other ∧
      types.definitions ≠ other.definitions ∧ types.names = other.names ∧
      types.validate = .error (.undefinedType "Ghost") ∧
      other.validate = .error (.undefinedType "Ghost") := by
  intro bit bits
  obtain ⟨same, alike⟩ := build_ignores_order [bits, bit] [bit, bits] (.swap bit bits [])
  have built : build [bits, bit] = .ok ⟨[bit, bits], by decide⟩ := by cbv
  obtain ⟨other, rebuilt⟩ := same.1 ⟨_, built⟩
  obtain ⟨-, arranged⟩ := alike _ other built rebuilt
  obtain ⟨-, results⟩ := arranged _ other (.refl _) (.refl _)
  have reported : validate ⟨[bit, bits], by decide⟩ = .error (.undefinedType "Ghost") := by cbv
  refine ⟨_, other, built, rebuilt, ?_, results.names, reported,
    results.validate.symm.trans reported⟩
  rw [(build_eq_ok_iff.1 rebuilt).2]
  decide

end SchemaWire.Namespace
