import SchemaWire.Proofs.DefinitionOrder
import SchemaWire.Proofs.DepthLimit
import SchemaWire.Proofs.EncodeFailure
import SchemaWire.Proofs.NameOrder

/-! Types with later names change nothing for the types before them.

Later names are sorted behind all others, so the types that were there keep their definitions and
their numbers. As long as those refer to each other only, no search among them comes to a later type. The
number of a later type is bound then, and is refused for being no case instead of being unbound.
-/

set_option autoImplicit false

namespace SchemaWire

open IdentifierTable (assign)

namespace Namespace

variable {types larger : Namespace} {unseen added : List Definition}
  {expected target name : String}

/-! ## Names behind the last one -/

/-- The larger namespace has definitions added, with names behind the ones that were there. -/
structure Extends (types : Namespace) (added : List Definition) (larger : Namespace) : Prop where
  definitions : larger.definitions.Perm (types.definitions ++ added)
  names : types.names <+: larger.names

theorem extends_of_build {definitions further all : List Definition}
    (built : build definitions = .ok types)
    (later : ∀ new ∈ further, ∀ name ∈ types.names, name < new.name)
    (together : all.Perm (definitions ++ further)) (rebuilt : build all = .ok larger) :
    Extends types further larger := by
  have held : larger.definitions.Perm (types.definitions ++ further) :=
    (perm_of_build rebuilt).trans (together.trans ((perm_of_build built).symm.append_right _))
  have distinct := (held.map (·.name)).nodup_iff.1 larger.distinct
  rw [List.map_append] at distinct
  -- The further definitions are a namespace too, and its names are sorted among themselves.
  let rest : Namespace := ⟨further, (List.nodup_append.1 distinct).2.1⟩
  have perm : (types.names ++ rest.names).Perm larger.names := by
    refine (types.names_perm.append rest.names_perm).trans ?_
    rw [← List.map_append]
    exact ((held.map (·.name)).symm).trans larger.names_perm.symm
  have ascending : (types.names ++ rest.names).Pairwise (· < ·) := by
    refine List.pairwise_append.2 ⟨types.ascending_names, rest.ascending_names, ?_⟩
    intro name bound newName added
    obtain ⟨new, member, rfl⟩ := List.mem_map.1 (rest.names_perm.mem_iff.1 added)
    exact later new member name bound
  exact ⟨held, rest.names, eq_of_ascending ascending larger.ascending_names perm⟩

theorem Extends.find? (extension : Extends types added larger)
    (bound : types.contains name = true) : larger.find? name = types.find? name := by
  obtain ⟨definition, found⟩ := contains_iff.1 bound
  obtain ⟨member, named⟩ := find?_eq_some_iff.1 found
  rw [found]
  exact find?_eq_some_iff.2
    ⟨extension.definitions.mem_iff.2 (List.mem_append_left added member), named⟩

theorem Extends.identifier? (extension : Extends types added larger)
    (bound : types.contains name = true) :
    ∃ identifier, (assign types).identifier? name = some identifier ∧
      (assign larger).identifier? name = some identifier := by
  obtain ⟨identifier, numbered⟩ :=
    IdentifierTable.exists_identifier?_iff.2 (IdentifierTable.mem_names_assign.2 bound)
  refine ⟨identifier, numbered, ?_⟩
  -- The name stands at the same place in the longer list.
  rw [← IdentifierTable.name?_eq_some_iff, IdentifierTable.name?_eq_some_iff_getElem?] at numbered ⊢
  obtain ⟨index, rfl, found⟩ := numbered
  obtain ⟨_, same⟩ : (assign types).names <+: (assign larger).names := extension.names
  refine ⟨index, rfl, ?_⟩
  rw [← same, List.getElem?_append_left (List.getElem?_eq_some_iff.1 found).1, found]

/-! ## Cases -/

theorem lookup_append {definition : Definition}
    (lookup : unseen.find? (·.name == name) = some definition) :
    (unseen ++ added).find? (·.name == name) = some definition := by
  rw [List.find?_append, lookup, Option.some_or]

theorem searchCase_append {pending : List (List String × String)} (closed : types.Closed)
    (fresh : ∀ new ∈ added, types.contains new.name ≠ true) (within : unseen ⊆ types.definitions)
    (bound : ∀ entry ∈ pending, types.contains entry.2 = true) :
    searchCase target (unseen ++ added) pending = searchCase target unseen pending := by
  fun_induction searchCase target unseen pending with
  | case1 => rw [searchCase]
  | case2 unseen path name pending missing ih =>
    rw [List.forall_mem_cons] at bound
    have absent : (unseen ++ added).find? (·.name == name) = none := by
      rw [List.find?_append, missing, Option.none_or, List.find?_eq_none]
      intro new member same
      exact fresh new member (eq_of_beq same ▸ bound.1)
    rw [searchCase_of_missing absent]
    exact ih within bound.2
  | case3 unseen path name pending definition lookup _ isEnum cases direct =>
    have enum := Definition.kind_eq_enum_iff.2 ⟨_, isEnum⟩
    rw [searchCase_of_enum (lookup_append lookup) enum, if_pos direct]
  | case4 unseen path name pending definition lookup _ isEnum cases indirect ih =>
    rw [List.forall_mem_cons] at bound
    have enum := Definition.kind_eq_enum_iff.2 ⟨_, isEnum⟩
    have member := List.mem_of_find?_eq_some lookup
    rw [searchCase_of_enum (lookup_append lookup) enum, if_neg indirect,
      List.erase_append_left _ member]
    -- A bound enum has bound cases, so the search stays among bound types.
    refine ih (fun _ other => within (List.erase_sublist.subset other)) fun entry waits => ?_
    rcases List.mem_append.1 waits with nested | waits
    · obtain ⟨case, reference, rfl⟩ := List.mem_map.1 nested
      exact closed definition (within member) case reference
    · exact bound.2 entry waits
  | case5 unseen path name pending definition lookup noEnum ih =>
    rw [List.forall_mem_cons] at bound
    rw [searchCase_of_concrete (lookup_append lookup) (Definition.kind_ne_enum_iff.2 noEnum)]
    exact ih within bound.2

theorem Extends.casePath? (extension : Extends types added larger) (closed : types.Closed)
    (bound : types.contains expected = true) (target : String) :
    larger.casePath? expected target = types.casePath? expected target := by
  have distinct := (extension.definitions.map (·.name)).nodup_iff.1 larger.distinct
  rw [List.map_append] at distinct
  have fresh : ∀ new ∈ added, types.contains new.name ≠ true := by
    intro new member again
    obtain ⟨definition, found⟩ := contains_iff.1 again
    obtain ⟨old, named⟩ := find?_eq_some_iff.1 found
    exact (List.nodup_append.1 distinct).2.2 _ (List.mem_map_of_mem old) _
      (List.mem_map_of_mem member) named
  rw [Namespace.casePath?, Namespace.casePath?,
    searchCase_of_perm larger.distinct extension.definitions,
    searchCase_append closed fresh (List.Subset.refl _)]
  intro entry pending
  obtain rfl := List.mem_singleton.1 pending
  exact bound

end Namespace

/-! ## The wire -/

namespace Codec

variable {first second : Codec} {known : String → Prop} {room : Nat} {type expected : String}
  {value : Value} {bytes rest : Bytes} {definition : Definition}

/-- Two codecs have certain types in common, with their definitions, numbers and cases. None of
these types refers to any other type. -/
structure Agree (known : String → Prop) (first second : Codec) : Prop where
  closed {type : String} {definition : Definition} (member : known type)
    (found : first.types.find? type = some definition) :
    ∀ reference ∈ definition.resolvedReferences, known reference
  definitions {type : String} (member : known type) :
    first.types.find? type = second.types.find? type
  identifiers {type : String} (member : known type) :
    first.identifiers.identifier? type = second.identifiers.identifier? type
  cases {type : String} (member : known type) (target : String) :
    first.types.casePath? type target = second.types.casePath? type target
  limit : first.maxDepth = second.maxDepth

theorem Agree.symm (agree : Agree known first second) : Agree known second first where
  closed member found := agree.closed member ((agree.definitions member).trans found)
  definitions member := (agree.definitions member).symm
  identifiers member := (agree.identifiers member).symm
  cases member target := (agree.cases member target).symm
  limit := agree.limit.symm

/-- A type in common has only cases in common, however deep they lie. -/
theorem Agree.known_of_caseChain {path : List String} {target : String}
    (agree : Agree known first second) (member : known expected)
    (chain : CaseChain first.types.definitions expected path target) : known target := by
  induction chain with
  | here _ => exact member
  | step bound _ reference _ ih =>
    exact ih (agree.closed member (Namespace.find?_eq_some_iff.2 ⟨bound, rfl⟩) _ reference)

theorem agree_of_extends {types larger : Namespace} {added : List Definition}
    (closed : types.Closed) (extension : types.Extends added larger) (maxDepth : Nat) :
    Agree (types.contains · = true) ⟨types, assign types, maxDepth⟩
      ⟨larger, assign larger, maxDepth⟩ where
  closed _ := closed.contains_of_references
  definitions bound := (extension.find? bound).symm
  identifiers bound := by
    obtain ⟨identifier, numbered, renumbered⟩ := extension.identifier? bound
    exact numbered.trans renumbered.symm
  cases bound target := (extension.casePath? closed bound target).symm
  limit := rfl

/-! ### Writing -/

theorem encodePayload_congr
    (parts : ∀ typed ∈ definition.typedParts value,
      encodeAt first room typed.1 typed.2 = encodeAt second room typed.1 typed.2) :
    encodePayload first room definition value = encodePayload second room definition value := by
  simp only [encodePayload]
  split
  · rfl
  · rfl
  · rename_i shape
    rw [Definition.typedParts_record shape] at parts
    rw [encodeFields_congr parts]
  · rename_i shape
    rw [Definition.typedParts_list shape] at parts
    rw [encodeItems_eq_encodeFields, encodeItems_eq_encodeFields, encodeFields_congr parts]
  · rfl

theorem Agree.encodeIdentifier_eq (agree : Agree known first second) (member : known type) :
    encodeIdentifier first type = encodeIdentifier second type := by
  simp only [encodeIdentifier, identifier, agree.identifiers member]

theorem Agree.encodeAt_eq (agree : Agree known first second) (member : known type)
    (value : Value) : encodeAt first room type value = encodeAt second room type value := by
  induction value using Value.induction generalizing room type with
  | step value payloads parts =>
    cases room with
    | zero => rw [encodeAt_zero, encodeAt_zero, agree.limit]
    | succ room =>
      have same := agree.definitions member
      cases found : first.types.find? type with
      | none =>
        rw [encodeAt_unbound found, encodeAt_unbound (same.symm.trans found)]
      | some definition =>
        have references := agree.closed member found
        have refound := same.symm.trans found
        by_cases enum : definition.kind = .enum
        · by_cases wrapped : value.kind = .enum
          · obtain ⟨case, payload, rfl⟩ := Value.kind_eq_enum_iff.1 wrapped
            by_cases reference : case ∈ definition.resolvedReferences
            · rw [encodeAt_case found enum reference, encodeAt_case refound enum reference]
              exact payloads case payload rfl (references case reference)
            · rw [encodeAt_of_foreign_case found enum reference,
                encodeAt_of_foreign_case refound enum reference]
          · rw [encodeAt_of_kind_ne found enum wrapped, encodeAt_of_kind_ne refound enum wrapped]
        · rw [encodeAt_concrete found enum, encodeAt_concrete refound enum,
            agree.encodeIdentifier_eq member, encodePayload_congr fun typed part => ?_]
          have reference := Definition.mem_resolvedReferences_of_partTypes (List.of_mem_zip part).1
          exact parts typed.2 (Definition.snd_mem_parts part) (references typed.1 reference)

/-! ### Reading -/

theorem Agree.takeAt_of_takeAt (agree : Agree known first second) (member : known expected)
    (taken : takeAt first room expected bytes = .ok (value, rest)) :
    takeAt second room expected bytes = .ok (value, rest) := by
  induction room generalizing expected bytes value rest with
  | zero => cases taken
  | succ room ih =>
    obtain ⟨word, body, actual, definition, path, payload, bound, rfl, named, found, concrete,
      reached, payloadTaken, rfl⟩ := takeAt_eq_ok_iff.1 taken
    have actualMember := agree.known_of_caseChain member (Namespace.caseChain_of_casePath? reached)
    have references := agree.closed actualMember found
    rw [agree.definitions member] at bound
    rw [agree.definitions actualMember] at found
    rw [agree.cases member] at reached
    rw [IdentifierTable.name?_eq_some_iff, agree.identifiers actualMember,
      ← IdentifierTable.name?_eq_some_iff] at named
    refine takeAt_eq_ok_iff.2 ⟨word, body, actual, definition, path, payload, bound, rfl, named,
      found, concrete, reached, takePayload_of_parts ?_ payloadTaken, rfl⟩
    intro part _ type piece reference read
    exact exactly_eq_ok_iff.2 (ih (references type reference) (exactly_eq_ok_iff.1 read))

theorem Agree.encode_eq (agree : Agree known first second) (member : known type) (value : Value) :
    first.encode type value = second.encode type value := by
  rw [encode, encode, emit, emit, agree.limit, agree.encodeAt_eq member]

theorem Agree.decode_of_decode (agree : Agree known first second) (member : known type)
    (decoded : first.decode type bytes = .ok value) : second.decode type bytes = .ok value := by
  have taken := exactly_eq_ok_iff.1 decoded
  rw [take, agree.limit] at taken
  exact exactly_eq_ok_iff.2 (agree.takeAt_of_takeAt member taken)

theorem Agree.decode_iff (agree : Agree known first second) (member : known type) :
    first.decode type bytes = .ok value ↔ second.decode type bytes = .ok value :=
  ⟨agree.decode_of_decode member, agree.symm.decode_of_decode member⟩

end Codec

/-! ## Schemas -/

namespace Namespace

/-- Further definitions with names behind all names of a valid namespace keep what that namespace
has on the wire. Its types have the same numbers in the larger namespace, which need not be valid,
their values are written alike, and the same bytes are read, to the same values. -/
theorem build_with_later_names (definitions further all : List Definition)
    (types larger : Namespace) (built : build definitions = .ok types)
    (valid : types.validate = .ok ())
    (later : ∀ new ∈ further, ∀ name ∈ types.names, Bytes.ofText name < Bytes.ofText new.name)
    (together : all.Perm (definitions ++ further)) (rebuilt : build all = .ok larger) :
    (∀ name ∈ types.names, ∃ identifier, (assign types).identifier? name = some identifier ∧
      (assign larger).identifier? name = some identifier) ∧
    ∀ type ∈ types.names, ∀ maxDepth,
      (∀ value, Codec.encode ⟨larger, assign larger, maxDepth⟩ type value =
        Codec.encode ⟨types, assign types, maxDepth⟩ type value) ∧
      ∀ bytes value, Codec.decode ⟨larger, assign larger, maxDepth⟩ type bytes = .ok value ↔
        Codec.decode ⟨types, assign types, maxDepth⟩ type bytes = .ok value := by
  simp only [Bytes.ofText_lt_ofText_iff] at later
  have closed := validate_eq_ok_iff.1 valid
  have extension := extends_of_build built later together rebuilt
  have bound {name : String} (member : name ∈ types.names) : types.contains name = true :=
    mem_names.1 member
  constructor
  · intro name member
    exact extension.identifier? (bound member)
  · intro type member maxDepth
    have agree := (Codec.agree_of_extends closed extension maxDepth).symm
    exact ⟨agree.encode_eq (bound member), fun _ _ => agree.decode_iff (bound member)⟩

/-- A shape is a dot or a group of shapes. A square has a number of its own, and although it refers
to a shape, and to sides that are not bound, it cannot be read as a shape. -/
theorem build_with_later_names_shapes :
    let dot : Definition := ⟨"Dot", .builtin .bool⟩
    let group : Definition := ⟨"Group", .list (.named "Shape")⟩
    let shape : Definition := ⟨"Shape", .enum [.named "Dot", .named "Group"]⟩
    let square : Definition := ⟨"Square", .record [.named "Shape", .named "Sides"]⟩
    let nested : Value := .enum "Group" (.list [.enum "Dot" (.builtin (.bool true))])
    ∃ types larger, build [shape, group, dot] = .ok types ∧
      build [square, shape, group, dot] = .ok larger ∧
      types.validate = .ok () ∧ larger.validate = .error (.undefinedType "Sides") ∧
      (assign larger).identifier? "Shape" = some 8 ∧ (assign larger).name? 9 = some "Square" ∧
      Codec.encode ⟨larger, assign larger, 1⟩ "Shape" nested = .ok [1, 7, 1, 1, 1, 3, 1, 6, 1] ∧
      ∀ value, Codec.decode ⟨larger, assign larger, 1⟩ "Shape" [1, 9] ≠ .ok value := by
  intro dot group shape square nested
  let types : Namespace := ⟨[dot, group, shape], by decide⟩
  let larger : Namespace := ⟨[dot, group, shape, square], by decide⟩
  have sorted : types.names = ["Dot", "Group", "Shape"] := by cbv
  have built : build [shape, group, dot] = .ok types := by cbv
  have rebuilt : build [square, shape, group, dot] = .ok larger := by cbv
  have valid : types.validate = .ok () := by cbv
  have later : ∀ new ∈ [square], ∀ name ∈ types.names,
      Bytes.ofText name < Bytes.ofText new.name := by
    simp only [Bytes.ofText_lt_ofText_iff, sorted]
    decide
  obtain ⟨numbers, wire⟩ := build_with_later_names [shape, group, dot] [square]
    [square, shape, group, dot] types larger built valid later (by decide) rebuilt
  obtain ⟨identifier, numbered, renumbered⟩ := numbers "Shape" (sorted ▸ by decide)
  have eighth : (assign types).identifier? "Shape" = some 8 := by cbv
  obtain rfl := Option.some.inj (numbered.symm.trans eighth)
  obtain ⟨encode_eq, decode_iff⟩ := wire "Shape" (sorted ▸ by decide) 1
  refine ⟨types, larger, built, rebuilt, valid, by cbv, renumbered, by cbv, ?_, ?_⟩
  · rw [encode_eq]
    cbv
  · intro value read
    have refused : Codec.decode ⟨types, assign types, 1⟩ "Shape" [1, 9] =
        .error (.conversion "Shape" (.unboundIdentifier 9)) := by cbv
    cases refused.symm.trans ((decode_iff _ _).1 read)

end Namespace

end SchemaWire
