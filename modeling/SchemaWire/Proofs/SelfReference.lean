import SchemaWire.Codec.Decode
import SchemaWire.Proofs.CasePath
import SchemaWire.Proofs.DefinitionOrder
import SchemaWire.Proofs.Encoding
import SchemaWire.Proofs.JsonParts
import SchemaWire.Proofs.ValueParts

/-! A self reference is no more than the name of the definition that it occurs in.

Writing out that name in place of every self reference keeps names, kinds and resolved references.
Nothing that walks, writes or reads sees more of a definition, so nothing can tell the difference.
-/

set_option autoImplicit false

namespace SchemaWire

/-! ## References by name -/

def TypeRef.spelledOut (enclosing : String) : TypeRef → TypeRef
  | named name => named name
  | self => named enclosing

@[simp] theorem TypeRef.resolve_spelledOut (enclosing : String) (reference : TypeRef) :
    (reference.spelledOut enclosing).resolve enclosing = reference.resolve enclosing := by
  cases reference <;> rfl

@[simp] theorem TypeRef.spelledOut_ne_self (enclosing : String) (reference : TypeRef) :
    reference.spelledOut enclosing ≠ self := by
  cases reference <;> simp [spelledOut]

@[simp] theorem TypeRef.map_resolve_spelledOut (enclosing : String) (references : List TypeRef) :
    (references.map (·.spelledOut enclosing)).map (·.resolve enclosing) =
      references.map (·.resolve enclosing) := by
  simp

def Shape.spelledOut (enclosing : String) : Shape → Shape
  | record fields => record (fields.map (·.spelledOut enclosing))
  | enum cases => enum (cases.map (·.spelledOut enclosing))
  | list element => list (element.spelledOut enclosing)
  | singleton => singleton
  | builtin representation => builtin representation

@[simp] theorem Shape.kind_spelledOut (enclosing : String) (shape : Shape) :
    (shape.spelledOut enclosing).kind = shape.kind := by
  cases shape <;> rfl

@[simp] theorem Shape.references_spelledOut (enclosing : String) (shape : Shape) :
    (shape.spelledOut enclosing).references =
      shape.references.map (·.spelledOut enclosing) := by
  cases shape <;> rfl

namespace Definition

def spelledOut (definition : Definition) : Definition where
  name := definition.name
  shape := definition.shape.spelledOut definition.name

variable (definition : Definition)

@[simp] theorem name_spelledOut : definition.spelledOut.name = definition.name := rfl

@[simp] theorem shape_spelledOut :
    definition.spelledOut.shape = definition.shape.spelledOut definition.name := rfl

@[simp] theorem kind_spelledOut : definition.spelledOut.kind = definition.kind := by
  simp [kind]

@[simp] theorem resolvedReferences_spelledOut :
    definition.spelledOut.resolvedReferences = definition.resolvedReferences := by
  simp [resolvedReferences, references]

theorem self_notMem_references_spelledOut : TypeRef.self ∉ definition.spelledOut.references := by
  simp [references]

end Definition

/-! ## Lookup -/

theorem find?_map_spelledOut (definitions : List Definition) (name : String) :
    (definitions.map Definition.spelledOut).find? (·.name == name) =
      (definitions.find? (·.name == name)).map Definition.spelledOut := by
  rw [List.find?_map]
  rfl

theorem lookup_spelledOut {definitions : List Definition} {name : String} {definition : Definition}
    (lookup : definitions.find? (·.name == name) = some definition) :
    (definitions.map Definition.spelledOut).find? (·.name == name) =
      some definition.spelledOut := by
  rw [find?_map_spelledOut, lookup, Option.map_some]

theorem missing_spelledOut {definitions : List Definition} {name : String}
    (missing : definitions.find? (·.name == name) = none) :
    (definitions.map Definition.spelledOut).find? (·.name == name) = none := by
  rw [find?_map_spelledOut, missing, Option.map_none]

theorem map_spelledOut_erase {definitions : List Definition} {name : String}
    {definition : Definition}
    (lookup : definitions.find? (·.name == name) = some definition) :
    (definitions.map Definition.spelledOut).erase definition.spelledOut =
      (definitions.erase definition).map Definition.spelledOut := by
  induction definitions with
  | nil => cases lookup
  | cons first rest ih =>
    rw [List.find?_cons] at lookup
    split at lookup
    · cases lookup
      simp
    · rename_i found
      -- The definition that is found has another name than the first, in both spellings.
      have named := Namespace.name_of_lookup lookup
      have differs : first.name ≠ definition.name := by simpa [named] using found
      have other : first ≠ definition := fun same => differs (congrArg Definition.name same)
      have spelledOther : first.spelledOut ≠ definition.spelledOut :=
        fun same => differs (congrArg (·.name) same)
      rw [List.map_cons, List.erase_cons_tail (by simpa using spelledOther),
        List.erase_cons_tail (by simpa using other), List.map_cons, ih lookup]

namespace Namespace

def spelledOut (types : Namespace) : Namespace where
  definitions := types.definitions.map Definition.spelledOut
  distinct := by simpa [List.map_map, Function.comp_def] using types.distinct

variable (types : Namespace)

@[simp] theorem definitions_spelledOut :
    types.spelledOut.definitions = types.definitions.map Definition.spelledOut := rfl

theorem find?_spelledOut (name : String) :
    types.spelledOut.find? name = (types.find? name).map Definition.spelledOut :=
  find?_map_spelledOut types.definitions name

@[simp] theorem contains_spelledOut (name : String) :
    types.spelledOut.contains name = types.contains name := by
  simp [contains, find?_spelledOut]

@[simp] theorem names_spelledOut : types.spelledOut.names = types.names := by
  rw [names, names, definitions_spelledOut, List.map_map]
  rfl

theorem assign_spelledOut : IdentifierTable.assign types.spelledOut = .assign types := by
  simp only [IdentifierTable.assign, names_spelledOut]

/-! ## Walking -/

theorem follow_spelledOut (unseen : List Definition) (pending : List String) :
    types.spelledOut.follow (unseen.map Definition.spelledOut) pending =
      types.follow unseen pending := by
  fun_induction follow types unseen pending with
  | case1 => rw [follow]
  | case2 unseen name pending definition lookup ih =>
    rw [follow_of_lookup (lookup_spelledOut lookup), map_spelledOut_erase lookup,
      Definition.resolvedReferences_spelledOut, ih]
  | case3 unseen name pending missing bound ih =>
    rw [follow_of_missing (missing_spelledOut missing), contains_spelledOut, if_pos bound, ih]
  | case4 unseen name pending missing unbound =>
    rw [follow_of_missing (missing_spelledOut missing), contains_spelledOut, if_neg unbound]

theorem validate_spelledOut : types.spelledOut.validate = types.validate := by
  rw [validate, validate, names_spelledOut, definitions_spelledOut, follow_spelledOut]

theorem searchCase_spelledOut (target : String) (unseen : List Definition)
    (pending : List (List String × String)) :
    searchCase target (unseen.map Definition.spelledOut) pending =
      searchCase target unseen pending := by
  fun_induction searchCase target unseen pending with
  | case1 => rw [searchCase]
  | case2 unseen path name pending missing ih =>
    rw [searchCase_of_missing (missing_spelledOut missing), ih]
  | case3 unseen path name pending definition lookup _ isEnum cases direct =>
    have enum := definition.kind_spelledOut.trans (Definition.kind_eq_enum_iff.2 ⟨_, isEnum⟩)
    rw [searchCase_of_enum (lookup_spelledOut lookup) enum,
      Definition.resolvedReferences_spelledOut, if_pos direct]
  | case4 unseen path name pending definition lookup _ isEnum cases indirect ih =>
    have enum := definition.kind_spelledOut.trans (Definition.kind_eq_enum_iff.2 ⟨_, isEnum⟩)
    rw [searchCase_of_enum (lookup_spelledOut lookup) enum,
      Definition.resolvedReferences_spelledOut, if_neg indirect, map_spelledOut_erase lookup]
    exact ih
  | case5 unseen path name pending definition lookup noEnum ih =>
    have concrete : definition.spelledOut.kind ≠ .enum := by
      rw [Definition.kind_spelledOut]
      exact Definition.kind_ne_enum_iff.2 noEnum
    rw [searchCase_of_concrete (lookup_spelledOut lookup) concrete, ih]

theorem casePath?_spelledOut (expected target : String) :
    types.spelledOut.casePath? expected target = types.casePath? expected target := by
  rw [casePath?, casePath?, definitions_spelledOut, searchCase_spelledOut]

/-! ## Namespaces that differ in spelling -/

/-- A name finds the same definition in the other namespace, but with self references spelled out. -/
structure Respelled (types other : Namespace) : Prop where
  find? (name : String) : other.find? name = (types.find? name).map Definition.spelledOut
  casePath? (expected target : String) :
    other.casePath? expected target = types.casePath? expected target

theorem respelled_spelledOut : Respelled types types.spelledOut :=
  ⟨types.find?_spelledOut, types.casePath?_spelledOut⟩

variable {types} {other : Namespace} (respelled : Respelled types other)
include respelled

/-! ### JSON -/

theorem Respelled.valueOfJson (type : String) (json : Json) :
    other.valueOfJson type json = types.valueOfJson type json := by
  induction json using Json.induction generalizing type with
  | node json ih =>
    rw [Namespace.valueOfJson.eq_def, Namespace.valueOfJson.eq_def types, respelled.find?]
    cases types.find? type with
    | none => rfl
    | some definition =>
      simp only [Option.map_some, Definition.shape_spelledOut, Definition.name_spelledOut,
        Definition.resolvedReferences_spelledOut]
      cases definition.shape with
      | singleton => cases json <;> rfl
      | builtin representation => rfl
      | record fields =>
        cases json with
        | array items =>
          have each (expected : List String) :
              convertParts other.valueOfJson expected items =
                convertParts types.valueOfJson expected items :=
            convertParts_congr fun typed member => ih typed.2 (List.of_mem_zip member).2 typed.1
          simp only [Shape.spelledOut, List.length_map, TypeRef.map_resolve_spelledOut,
            fieldsOfJson_eq_convertParts, each]
        | _ => rfl
      | list element =>
        cases json with
        | array items =>
          have each (expected : List String) :
              convertParts other.valueOfJson expected items =
                convertParts types.valueOfJson expected items :=
            convertParts_congr fun typed member => ih typed.2 (List.of_mem_zip member).2 typed.1
          simp only [Shape.spelledOut, TypeRef.resolve_spelledOut, itemsOfJson_eq_convertParts,
            each]
        | _ => rfl
      | enum references =>
        cases json with
        | object members =>
          rcases members with _ | ⟨⟨case, inner⟩, _ | ⟨second, later⟩⟩
          · rfl
          · simp only [Shape.spelledOut, ih inner List.mem_cons_self]
          · rfl
        | _ => rfl

theorem Respelled.jsonOfValue (type : String) (value : Value) :
    other.jsonOfValue type value = types.jsonOfValue type value := by
  induction value using Value.induction generalizing type with
  | step value inner parts =>
    rw [Namespace.jsonOfValue.eq_def, Namespace.jsonOfValue.eq_def types, respelled.find?]
    cases types.find? type with
    | none => rfl
    | some definition =>
      simp only [Option.map_some, Definition.shape_spelledOut, Definition.name_spelledOut,
        Definition.resolvedReferences_spelledOut]
      cases definition.shape with
      | singleton => cases value <;> rfl
      | builtin representation => cases value <;> rfl
      | record fields =>
        cases value with
        | record values =>
          have each (expected : List String) :
              convertParts other.jsonOfValue expected values =
                convertParts types.jsonOfValue expected values :=
            convertParts_congr fun typed member => parts typed.2 (List.of_mem_zip member).2 typed.1
          simp only [Shape.spelledOut, List.length_map, TypeRef.map_resolve_spelledOut,
            jsonOfFields_eq_convertParts, each]
        | _ => rfl
      | list element =>
        cases value with
        | list values =>
          have each (expected : List String) :
              convertParts other.jsonOfValue expected values =
                convertParts types.jsonOfValue expected values :=
            convertParts_congr fun typed member => parts typed.2 (List.of_mem_zip member).2 typed.1
          simp only [Shape.spelledOut, TypeRef.resolve_spelledOut, jsonOfItems_eq_convertParts,
            each]
        | _ => rfl
      | enum references =>
        cases value with
        | enum case payload => simp only [Shape.spelledOut, inner case payload rfl]
        | _ => rfl

end Namespace

/-! ## The wire -/

namespace Codec

@[simp] theorem wrongKind_spelledOut (definition : Definition) (value : Value) :
    wrongKind definition.spelledOut value = wrongKind definition value := by
  simp [wrongKind]

theorem takePayload_spelledOut (read : String → Bytes → Except CodecError Value)
    (definition : Definition) (bytes : Bytes) :
    takePayload read definition.spelledOut bytes = takePayload read definition bytes := by
  simp only [takePayload, Definition.shape_spelledOut, Definition.name_spelledOut]
  cases definition.shape with
  | record fields => simp only [Shape.spelledOut, TypeRef.map_resolve_spelledOut]
  | list element => simp only [Shape.spelledOut, TypeRef.resolve_spelledOut]
  | _ => rfl

variable {types other : Namespace} {table : IdentifierTable} {maxDepth : Nat}
  (respelled : types.Respelled other)
include respelled

theorem definition_of_respelled (type : String) :
    definition ⟨other, table, maxDepth⟩ type =
      (definition ⟨types, table, maxDepth⟩ type).map Definition.spelledOut := by
  simp only [definition, respelled.find?]
  cases types.find? type <;> rfl

theorem encodeAt_of_respelled (room : Nat) (type : String) (value : Value) :
    encodeAt ⟨other, table, maxDepth⟩ room type value =
      encodeAt ⟨types, table, maxDepth⟩ room type value := by
  induction value using Value.induction generalizing room type with
  | step value inner parts =>
    rw [encodeAt.eq_def, encodeAt.eq_def ⟨types, table, maxDepth⟩,
      definition_of_respelled respelled]
    cases room with
    | zero => rfl
    | succ room =>
      cases definition ⟨types, table, maxDepth⟩ type with
      | error error => rfl
      | ok definition =>
        simp only [Except.map, Definition.shape_spelledOut, Definition.name_spelledOut,
          Definition.resolvedReferences_spelledOut, wrongKind_spelledOut,
          encodeIdentifier, identifier]
        cases definition.shape with
        | singleton => cases value <;> rfl
        | builtin representation => cases value <;> rfl
        | record fields =>
          cases value with
          | record values =>
            have each (expected : List String) :
                encodeFields ⟨other, table, maxDepth⟩ room expected values =
                  encodeFields ⟨types, table, maxDepth⟩ room expected values :=
              encodeFields_congr fun typed member =>
                parts typed.2 (List.of_mem_zip member).2 room typed.1
            simp only [Shape.spelledOut, List.length_map, TypeRef.map_resolve_spelledOut,
              each]
          | _ => rfl
        | list element =>
          cases value with
          | list values =>
            have each (expected : List String) :
                encodeFields ⟨other, table, maxDepth⟩ room expected values =
                  encodeFields ⟨types, table, maxDepth⟩ room expected values :=
              encodeFields_congr fun typed member =>
                parts typed.2 (List.of_mem_zip member).2 room typed.1
            simp only [Shape.spelledOut, TypeRef.resolve_spelledOut, encodeItems_eq_encodeFields,
              each]
          | _ => rfl
        | enum references =>
          cases value with
          | enum case payload =>
            simp only [Shape.spelledOut, inner case payload rfl]
          | _ => rfl

theorem takeAt_of_respelled (room : Nat) (expected : String) (bytes : Bytes) :
    takeAt ⟨other, table, maxDepth⟩ room expected bytes =
      takeAt ⟨types, table, maxDepth⟩ room expected bytes := by
  induction room generalizing expected bytes with
  | zero => rfl
  | succ room ih =>
    have read : (fun type piece => exactly type (takeAt ⟨other, table, maxDepth⟩ room type piece)) =
        fun type piece => exactly type (takeAt ⟨types, table, maxDepth⟩ room type piece) := by
      funext type piece
      rw [ih]
    simp only [takeAt, definition_of_respelled respelled, respelled.casePath?, read]
    cases definition ⟨types, table, maxDepth⟩ expected with
    | error error => rfl
    | ok bound =>
      cases reading expected .malformedIdentifier (Varint.popWord bytes) with
      | error error => rfl
      | ok popped =>
        simp only [Except.map, Outcome.ok_bind]
        cases table.name? popped.1.toNat with
        | none => rfl
        | some actual =>
          dsimp only
          cases definition ⟨types, table, maxDepth⟩ actual with
          | error error => rfl
          | ok definition =>
            simp only [Outcome.ok_bind, Definition.kind_spelledOut, takePayload_spelledOut]

theorem encode_of_respelled (type : String) (value : Value) :
    encode ⟨other, table, maxDepth⟩ type value = encode ⟨types, table, maxDepth⟩ type value :=
  congrArg Emission.result (encodeAt_of_respelled respelled (maxDepth + 1) type value)

theorem decode_of_respelled (type : String) (bytes : Bytes) :
    decode ⟨other, table, maxDepth⟩ type bytes = decode ⟨types, table, maxDepth⟩ type bytes :=
  congrArg (exactly type) (takeAt_of_respelled respelled (maxDepth + 1) type bytes)

end Codec

/-! ## Schemas -/

namespace Namespace

/-- Definitions that form a namespace still do so when their self references are spelled out. Then
the same names have the same numbers, validation comes to the same end, and values are written and
read alike, whichever table numbers the types. -/
theorem build_spelledOut (definitions : List Definition) (types : Namespace)
    (built : build definitions = .ok types) :
    (∀ definition ∈ definitions.map Definition.spelledOut,
      TypeRef.self ∉ definition.references) ∧
    ∃ spelled, build (definitions.map Definition.spelledOut) = .ok spelled ∧
      spelled.validate = types.validate ∧
      IdentifierTable.assign spelled = .assign types ∧
      ∀ identifiers maxDepth type,
        (∀ value, Codec.encode ⟨spelled, identifiers, maxDepth⟩ type value =
          Codec.encode ⟨types, identifiers, maxDepth⟩ type value) ∧
        (∀ bytes, Codec.decode ⟨spelled, identifiers, maxDepth⟩ type bytes =
          Codec.decode ⟨types, identifiers, maxDepth⟩ type bytes) ∧
        (∀ value, spelled.jsonOfValue type value = types.jsonOfValue type value) ∧
        ∀ json, spelled.valueOfJson type json = types.valueOfJson type json := by
  obtain ⟨free, held⟩ := build_eq_ok_iff.1 built
  refine ⟨?_, types.spelledOut, ?_, types.validate_spelledOut, types.assign_spelledOut, ?_⟩
  · intro spelled member
    obtain ⟨definition, _, rfl⟩ := List.mem_map.1 member
    exact definition.self_notMem_references_spelledOut
  · apply build_eq_ok_iff.2
    refine ⟨?_, by rw [definitions_spelledOut, held, List.map_reverse]⟩
    intro spelled member
    obtain ⟨definition, given, rfl⟩ := List.mem_map.1 member
    exact free definition given
  · intro identifiers maxDepth type
    have respelled := types.respelled_spelledOut
    exact ⟨Codec.encode_of_respelled respelled type, Codec.decode_of_respelled respelled type,
      respelled.jsonOfValue type, respelled.valueOfJson type⟩

/-- A nest holds nests, and a stem is a stem or a nest; what is not bound is reported for both. -/
theorem build_spelledOut_nest :
    let stem : Definition := ⟨"Stem", .enum [.self, .named "Nest", .named "Ghost"]⟩
    let spelledStem : Definition :=
      ⟨"Stem", .enum [.named "Stem", .named "Nest", .named "Ghost"]⟩
    ∃ types spelled, build [stem, ⟨"Nest", .list .self⟩] = .ok types ∧
      build [spelledStem, ⟨"Nest", .list (.named "Nest")⟩] = .ok spelled ∧
      spelled.validate = .error (.undefinedType "Ghost") ∧
      Codec.encode ⟨spelled, .assign spelled, 1⟩ "Stem"
        (.enum "Stem" (.enum "Nest" (.list [.list []]))) = .ok [1, 6, 1, 1, 1, 3, 1, 6, 0] := by
  intro stem spelledStem
  have built : build [stem, ⟨"Nest", .list .self⟩] =
      .ok ⟨[⟨"Nest", .list .self⟩, stem], by decide⟩ := by cbv
  obtain ⟨-, spelled, rebuilt, validated, numbered, alike⟩ := build_spelledOut _ _ built
  refine ⟨_, spelled, built, rebuilt, validated.trans (by cbv), ?_⟩
  rw [numbered]
  exact ((alike _ 1 "Stem").1 _).trans (by cbv)

end Namespace

end SchemaWire
