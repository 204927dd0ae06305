import SchemaWire.Proofs.JsonParts
import SchemaWire.Proofs.Typing

/-! What a successful conversion between a value and JSON consists of.

The top of the value suits the definition of the type, the JSON has the form of that kind of value,
and each part is converted at its type. Both directions are stated by the value, on whose form that
of the JSON depends.
-/

set_option autoImplicit false

namespace SchemaWire

theorem Primitive.representation_of_ofJson {representation : Representation} {json : Json}
    {primitive : Primitive} (read : ofJson representation json = .ok primitive) :
    representation = primitive.representation := by
  simp only [ofJson] at read
  repeat' split at read
  all_goals cases read <;> rfl

theorem Primitive.ofJson_eq_ok_iff {representation : Representation} {json : Json}
    {primitive : Primitive} :
    ofJson representation json = .ok primitive ↔
      representation = primitive.representation ∧
        ofJson primitive.representation json = .ok primitive := by
  constructor
  · intro read
    obtain rfl := representation_of_ofJson read
    exact ⟨rfl, read⟩
  · rintro ⟨rfl, read⟩
    exact read

namespace Namespace

variable {types : Namespace} {type : String} {definition : Definition} {value : Value} {json : Json}

def Writes (types : Namespace) (definition : Definition) (json : Json) : Value → Prop
  | .singleton => json = .null
  | .builtin primitive => json = primitive.toJson
  | .enum case payload =>
    ∃ inner, types.jsonOfValue case payload = .ok inner ∧ json = .object [(case, inner)]
  | value =>
    ∃ items,
      convertParts types.jsonOfValue (definition.partTypes value.parts.length) value.parts =
        .ok items ∧ json = .array items

def Reads (types : Namespace) (definition : Definition) (json : Json) : Value → Prop
  | .singleton => json = .null
  | .builtin primitive => Primitive.ofJson primitive.representation json = .ok primitive
  | .enum case payload =>
    ∃ inner, types.valueOfJson case inner = .ok payload ∧ json = .object [(case, inner)]
  | value =>
    ∃ items,
      convertParts types.valueOfJson (definition.partTypes value.parts.length) items =
        .ok value.parts ∧ items.length = value.parts.length ∧ json = .array items

theorem jsonOfValue_eq_ok_iff :
    types.jsonOfValue type value = .ok json ↔
      ∃ definition, types.find? type = some definition ∧ definition.Admits value ∧
        types.Writes definition json value := by
  rw [jsonOfValue.eq_def]
  split
  · rename_i unbound
    simp [unbound]
  · rename_i definition found
    simp only [found, Option.some.injEq, exists_eq_left']
    cases shape : definition.shape with
    | singleton => cases value <;> simp [Definition.Admits, shape, Writes, eq_comm]
    | builtin representation =>
      cases value with
      | builtin primitive =>
        by_cases same : representation = primitive.representation <;>
          simp [Definition.Admits, shape, Writes, same, eq_comm]
      | _ => simp [Definition.Admits, shape]
    | record fields =>
      cases value with
      | record values =>
        by_cases counted : values.length = fields.length
        · simp [Definition.Admits, shape, Writes, Definition.partTypes, Value.parts, counted,
            jsonOfFields_eq_convertParts, @eq_comm _ json]
        · simp [Definition.Admits, shape, counted, Ne.symm counted]
      | _ => simp [Definition.Admits, shape]
    | list element =>
      cases value with
      | list values =>
        simp [Definition.Admits, shape, Writes, Definition.partTypes, Value.parts,
          jsonOfItems_eq_convertParts, @eq_comm _ json]
      | _ => simp [Definition.Admits, shape]
    | enum references =>
      cases value with
      | enum case payload =>
        by_cases reference : case ∈ definition.resolvedReferences <;>
          simp [Definition.Admits, shape, Writes, reference, @eq_comm _ json]
      | _ => simp [Definition.Admits, shape]

theorem fieldsOfJson_eq_ok_iff {fields : List String} {items : List Json} {values : List Value}
    (counted : fields.length = items.length) :
    fieldsOfJson types fields items = .ok values ↔
      convertParts types.valueOfJson fields items = .ok values ∧ items.length = values.length := by
  rw [fieldsOfJson_eq_convertParts]
  constructor
  · intro converted
    exact ⟨converted, length_of_convertParts counted converted⟩
  · rintro ⟨converted, -⟩
    exact converted

theorem itemsOfJson_eq_ok_iff {element : String} {items : List Json} {values : List Value} :
    itemsOfJson types element items = .ok values ↔
      convertParts types.valueOfJson (List.replicate values.length element) items = .ok values ∧
        items.length = values.length := by
  rw [itemsOfJson_eq_convertParts]
  constructor
  · intro converted
    have same := length_of_convertParts List.length_replicate converted
    exact ⟨same ▸ converted, same⟩
  · rintro ⟨converted, same⟩
    exact same ▸ converted

theorem valueOfJson_eq_ok_iff :
    types.valueOfJson type json = .ok value ↔
      ∃ definition, types.find? type = some definition ∧ definition.Admits value ∧
        types.Reads definition json value := by
  rw [valueOfJson.eq_def]
  split
  · rename_i unbound
    simp [unbound]
  · rename_i definition found
    simp only [found, Option.some.injEq, exists_eq_left']
    cases shape : definition.shape with
    | singleton => cases json <;> cases value <;> simp [Definition.Admits, shape, Reads]
    | builtin representation =>
      cases value with
      | builtin primitive =>
        simp only [Definition.Admits, shape, Reads, ← Primitive.ofJson_eq_ok_iff]
        split <;> simp_all
      | _ =>
        simp only [Definition.Admits, shape, false_and, iff_false]
        split <;> simp
    | record fields =>
      cases json with
      | array items =>
        by_cases counted : items.length = fields.length
        · cases value <;>
            simp [Definition.Admits, shape, Reads, Definition.partTypes, Value.parts, counted,
              fieldsOfJson_eq_ok_iff, and_comm]
        · cases value with
          | record values =>
            simp only [Definition.Admits, shape, Reads, Json.array.injEq, if_neg counted]
            refine iff_of_false (fun read => by cases read) ?_
            rintro ⟨expected, _, -, same, rfl⟩
            exact counted (same.trans expected.symm)
          | _ => simp [Definition.Admits, shape, counted]
      | _ => cases value <;> simp [Definition.Admits, shape, Reads]
    | list element =>
      cases json with
      | array items =>
        cases value <;>
          simp [Definition.Admits, shape, Reads, Definition.partTypes, Value.parts,
            itemsOfJson_eq_ok_iff]
      | _ => cases value <;> simp [Definition.Admits, shape, Reads]
    | enum references =>
      cases json with
      | object members =>
        rcases members with _ | ⟨⟨case, inner⟩, _ | ⟨second, later⟩⟩
        · cases value <;> simp [Definition.Admits, shape, Reads]
        · cases value with
          | enum other payload =>
            by_cases same : case = other
            · subst same
              by_cases reference : case ∈ definition.resolvedReferences <;>
                simp [Definition.Admits, shape, Reads, reference]
            · by_cases reference : case ∈ definition.resolvedReferences <;>
                simp [Definition.Admits, shape, Reads, reference, same]
          | _ =>
            by_cases reference : case ∈ definition.resolvedReferences <;>
              simp [Definition.Admits, shape, reference]
        · cases value <;> simp [Definition.Admits, shape, Reads]
      | _ => cases value <;> simp [Definition.Admits, shape, Reads]

end Namespace

end SchemaWire
