import SchemaWire.Proofs.Encodable
import SchemaWire.Proofs.ValueParts

/-! Values that have a type.

Neither the wire nor JSON has a part in this: a value has a type when its top suits the definition
of the type and each part has the type that is expected at its place. A type need not be bound as
long as no part is of it.
-/

set_option autoImplicit false

namespace SchemaWire

namespace Definition

variable {definition : Definition} {value : Value}

/-- The top of a value suits a definition, whatever its parts are. -/
def Admits (definition : Definition) (value : Value) : Prop :=
  match definition.shape, value with
  | .singleton, .singleton => True
  | .builtin representation, .builtin primitive => representation = primitive.representation
  | .record fields, .record values => fields.length = values.length
  | .list _, .list _ => True
  | .enum _, .enum case _ => case ∈ definition.resolvedReferences
  | _, _ => False

theorem Admits.kind (admits : definition.Admits value) : value.kind = definition.kind := by
  cases shape : definition.shape <;> cases value <;>
    simp_all [Admits, Definition.kind, Shape.kind, Value.kind]

theorem admits_case {case : String} {payload : Value} (enum : definition.kind = .enum)
    (reference : case ∈ definition.resolvedReferences) :
    definition.Admits (.enum case payload) := by
  cases shape : definition.shape with
  | enum references => simpa [Admits, shape] using reference
  | _ => simp [Definition.kind, shape, Shape.kind] at enum

theorem Admits.builtin {primitive : Primitive} (admits : definition.Admits (.builtin primitive)) :
    definition.shape = .builtin primitive.representation := by
  cases shape : definition.shape <;> simp_all [Admits]

theorem Admits.exists_case (admits : definition.Admits value) (enum : definition.kind = .enum) :
    ∃ case payload, value = .enum case payload ∧ case ∈ definition.resolvedReferences := by
  cases value with
  | enum case payload =>
    cases shape : definition.shape with
    | enum references => exact ⟨case, payload, rfl, by simpa [Admits, shape] using admits⟩
    | _ => simp [Definition.kind, shape, Shape.kind] at enum
  | _ =>
    have kind := admits.kind
    simp [enum, Value.kind] at kind

theorem mem_resolvedReferences_of_partTypes {count : Nat} {type : String}
    (member : type ∈ definition.partTypes count) : type ∈ definition.resolvedReferences := by
  simp only [partTypes] at member
  split at member
  · rename_i fields shape
    simpa [resolvedReferences, references, shape, Shape.references] using member
  · rename_i element shape
    obtain rfl := List.eq_of_mem_replicate member
    simp [resolvedReferences, references, shape, Shape.references]
  · cases member

def typedParts (definition : Definition) (value : Value) : List (String × Value) :=
  (definition.partTypes value.parts.length).zip value.parts

theorem typedParts_record {fields : List TypeRef} (shape : definition.shape = .record fields)
    (values : List Value) :
    definition.typedParts (.record values) =
      (fields.map (·.resolve definition.name)).zip values := by
  simp only [typedParts, partTypes, shape, Value.parts]

theorem typedParts_list {element : TypeRef} (shape : definition.shape = .list element)
    (items : List Value) :
    definition.typedParts (.list items) =
      (List.replicate items.length (element.resolve definition.name)).zip items := by
  simp only [typedParts, partTypes, shape, Value.parts]

theorem length_partTypes (admits : definition.Admits value) :
    (definition.partTypes value.parts.length).length = value.parts.length := by
  cases shape : definition.shape <;> cases value <;>
    simp_all [Admits, partTypes, Value.parts]

theorem snd_mem_parts {typed : String × Value} (member : typed ∈ definition.typedParts value) :
    typed.2 ∈ value.parts :=
  (List.of_mem_zip member).2

theorem exists_mem_typedParts (admits : definition.Admits value) {part : Value}
    (member : part ∈ value.parts) : ∃ type, (type, part) ∈ definition.typedParts value := by
  have parts : (definition.typedParts value).map Prod.snd = value.parts :=
    List.map_snd_zip (Nat.le_of_eq (length_partTypes admits).symm)
  rw [← parts] at member
  obtain ⟨⟨type, _⟩, paired, rfl⟩ := List.mem_map.1 member
  exact ⟨type, paired⟩

end Definition

/-- A value in a case is of the type of the case, and each part is of the type at its place. -/
inductive Namespace.HasType (types : Namespace) : String → Value → Prop where
  | intro {type : String} {value : Value} {definition : Definition} :
      types.find? type = some definition → definition.Admits value →
      (∀ case payload, value = .enum case payload → HasType types case payload) →
      (∀ typed ∈ definition.typedParts value, HasType types typed.1 typed.2) →
      HasType types type value

end SchemaWire
