import Mathlib.Data.List.Forall2
import SchemaWire.Proofs.Encoding

/-! Induction over the values that can be encoded.

Such a value is a payload in a chain of cases, and each part of the payload is again such a value at
the type of that part.
-/

set_option autoImplicit false

namespace SchemaWire

def Definition.partTypes (definition : Definition) (count : Nat) : List String :=
  match definition.shape with
  | .record fields => fields.map (·.resolve definition.name)
  | .list element => List.replicate count (element.resolve definition.name)
  | _ => []

def Namespace.partTypes (types : Namespace) (type : String) (count : Nat) : List String :=
  match types.find? type with
  | some definition => definition.partTypes count
  | none => []

/-- A payload of a concrete type whose parts satisfy `motive` at their types. -/
inductive PayloadOf (types : Namespace) (motive : String → Value → Prop) (type : String) :
    Value → Prop where
  | singleton : PayloadOf types motive type .singleton
  | builtin (primitive : Primitive) : PayloadOf types motive type (.builtin primitive)
  | record {fields : List Value} :
      List.Forall₂ motive (types.partTypes type fields.length) fields →
      PayloadOf types motive type (.record fields)
  | list {items : List Value} :
      List.Forall₂ motive (types.partTypes type items.length) items →
      PayloadOf types motive type (.list items)

namespace Codec

variable {codec : Codec} {room : Nat} {motive : String → Value → Prop} {bytes : Bytes}

theorem forall₂_of_encodeFields
    (parts : ∀ {type value piece}, encodeAt codec room type value = .write piece →
      motive type value)
    {fields : List String} {values : List Value} (counted : fields.length = values.length)
    (written : encodeFields codec room fields values = .write bytes) :
    List.Forall₂ motive fields values := by
  induction fields generalizing values bytes with
  | nil =>
    rw [List.length_eq_zero_iff.1 counted.symm]
    exact .nil
  | cons field fields ih =>
    cases values with
    | nil => cases counted
    | cons value values =>
      obtain ⟨piece, back, first, later, rfl⟩ := encodeFields_cons_eq_write_iff.1 written
      exact .cons (parts first) (ih (Nat.succ.inj counted) later)

theorem payloadOf_of_encodePayload
    (parts : ∀ {type value piece}, encodeAt codec room type value = .write piece →
      motive type value)
    {type : String} {definition : Definition} (found : codec.types.find? type = some definition)
    {payload : Value} (written : encodePayload codec room definition payload = .write bytes) :
    PayloadOf codec.types motive type payload := by
  simp only [encodePayload] at written
  split at written
  · exact .singleton
  · exact .builtin _
  · rename_i fields values shape
    split at written
    · rename_i counted
      refine .record ?_
      simp only [Namespace.partTypes, found, Definition.partTypes, shape]
      exact forall₂_of_encodeFields parts (by simpa using counted) written
    · exact absurd written (Emission.fail_ne_write _)
  · rename_i element items shape
    obtain ⟨_, _, _, written, _⟩ := Emission.andThen_eq_write_iff.1 written
    refine .list ?_
    simp only [Namespace.partTypes, found, Definition.partTypes, shape]
    rw [encodeItems_eq_encodeFields] at written
    exact forall₂_of_encodeFields parts (by simp) written
  · exact absurd written (Emission.fail_ne_write _)

theorem encodable_induction
    (step : ∀ {expected path type definition payload},
      CaseChain codec.types.definitions expected path type →
      codec.types.find? type = some definition → definition.kind ≠ .enum →
      PayloadOf codec.types motive type payload → motive expected (payload.wrap path))
    {expected : String} {value : Value}
    (written : encodeAt codec room expected value = .write bytes) : motive expected value := by
  -- Every part is written with a level less, whatever chain of cases it stands in.
  induction room generalizing expected value bytes with
  | zero =>
    obtain ⟨_, _, none, _⟩ := encodeAt_bound written
    cases none
  | succ room ih =>
    obtain ⟨path, type, payload, definition, rfl, chain, found, concrete, written⟩ :=
      encodeAt_cases value written
    obtain ⟨_, _, _, written, _⟩ := Emission.andThen_eq_write_iff.1 written
    exact step chain found concrete (payloadOf_of_encodePayload ih found written)

end Codec

end SchemaWire
