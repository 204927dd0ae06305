import SchemaWire.Proofs.Bindings

/-! Validation accepts a namespace just when every reference in it is bound.

The walk enters definitions by name and crosses out what it has entered. What is still to be entered
has its name pending, so nothing is left out in the end.
-/

set_option autoImplicit false

namespace SchemaWire

namespace Definition

variable {definition : Definition}

theorem resolvedReferences_record {fields : List TypeRef}
    (shape : definition.shape = .record fields) :
    definition.resolvedReferences = fields.map (·.resolve definition.name) := by
  simp [resolvedReferences, references, shape, Shape.references]

theorem resolvedReferences_list {element : TypeRef} (shape : definition.shape = .list element) :
    definition.resolvedReferences = [element.resolve definition.name] := by
  simp [resolvedReferences, references, shape, Shape.references]

end Definition

namespace Namespace

def Closed (types : Namespace) : Prop :=
  ∀ definition ∈ types.definitions, ∀ name ∈ definition.resolvedReferences,
    types.contains name = true

variable {types : Namespace} {unseen : List Definition} {pending : List String} {name : String}
  {definition : Definition}

theorem contains_name (member : definition ∈ types.definitions) :
    types.contains definition.name = true :=
  contains_iff.2 ⟨definition, find?_name member⟩

theorem Closed.contains_of_references (closed : types.Closed)
    (found : types.find? name = some definition) :
    ∀ reference ∈ definition.resolvedReferences, types.contains reference = true :=
  closed definition (find?_eq_some_iff.1 found).1

/-! ## The walk -/

/-- A walk that succeeds finds every pending name and every reference of what it has not entered
before, as long as all of that is pending. -/
theorem bound_of_follow (within : unseen ⊆ types.definitions)
    (distinct : (unseen.map (·.name)).Nodup)
    (waiting : ∀ definition ∈ unseen, definition.name ∈ pending)
    (followed : types.follow unseen pending = .ok ()) :
    (∀ name ∈ pending, types.contains name = true) ∧
      ∀ definition ∈ unseen, ∀ name ∈ definition.resolvedReferences,
        types.contains name = true := by
  fun_induction follow types unseen pending with
  | case1 unseen =>
    refine ⟨nofun, fun definition member => ?_⟩
    cases waiting definition member
  | case2 unseen name pending definition lookup ih =>
    have member := List.mem_of_find?_eq_some lookup
    obtain rfl := name_of_lookup lookup
    have remaining : unseen.erase definition ⊆ unseen := List.erase_sublist.subset
    -- Another definition has another name, so its name is pending behind this one.
    have later : ∀ other ∈ unseen.erase definition,
        other.name ∈ definition.resolvedReferences ++ pending := by
      intro other otherMember
      rcases List.mem_cons.1 (waiting other (remaining otherMember)) with same | waits
      · have equal := List.inj_on_of_nodup_map distinct (remaining otherMember) member same
        exact absurd (equal ▸ otherMember) (List.Nodup.of_map _ distinct).not_mem_erase
      · exact List.mem_append_right _ waits
    obtain ⟨names, references⟩ := ih (fun _ other => within (remaining other))
      (distinct.sublist (List.erase_sublist.map _)) later followed
    refine ⟨fun name waits => ?_, fun other otherMember name reference => ?_⟩
    · rcases List.mem_cons.1 waits with rfl | waits
      · exact contains_name (within member)
      · exact names name (List.mem_append_right _ waits)
    · by_cases same : other = definition
      · subst same
        exact names name (List.mem_append_left _ reference)
      · exact references other ((List.mem_erase_of_ne same).2 otherMember) name reference
  | case3 unseen name pending unknown bound ih =>
    have later : ∀ other ∈ unseen, other.name ∈ pending := by
      intro other member
      rcases List.mem_cons.1 (waiting other member) with same | waits
      · simpa [same] using List.find?_eq_none.1 unknown other member
      · exact waits
    obtain ⟨names, references⟩ := ih within distinct later followed
    refine ⟨fun other waits => ?_, references⟩
    rcases List.mem_cons.1 waits with rfl | waits
    · exact bound
    · exact names other waits
  | case4 => cases followed

theorem follow_of_closed (closed : types.Closed) (within : unseen ⊆ types.definitions)
    (bound : ∀ name ∈ pending, types.contains name = true) :
    types.follow unseen pending = .ok () := by
  fun_induction follow types unseen pending with
  | case1 => rfl
  | case2 unseen name pending definition lookup ih =>
    have member := List.mem_of_find?_eq_some lookup
    refine ih (fun _ other => within (List.erase_sublist.subset other)) fun name waits => ?_
    rcases List.mem_append.1 waits with reference | waits
    · exact closed definition (within member) name reference
    · exact bound name (List.mem_cons_of_mem _ waits)
  | case3 unseen name pending _ _ ih =>
    exact ih within fun other waits => bound other (List.mem_cons_of_mem _ waits)
  | case4 unseen name pending _ unbound =>
    exact absurd (bound name List.mem_cons_self) unbound

theorem validate_eq_ok_iff : types.validate = .ok () ↔ types.Closed := by
  constructor
  · intro valid
    refine (bound_of_follow (List.Subset.refl _) types.distinct ?_ valid).2
    exact fun definition member => mem_names.2 (contains_name member)
  · intro closed
    apply follow_of_closed closed (List.Subset.refl _)
    intro name member
    exact mem_names.1 member

def parcels : Namespace where
  definitions :=
    [⟨"Contents", .builtin .bytes⟩,
      ⟨"Label", .builtin .text⟩,
      ⟨"Parcel", .record [.named "Label", .named "Weight", .named "Contents", .named "Parcels"]⟩,
      ⟨"Parcels", .list (.named "Parcel")⟩,
      ⟨"Weight", .builtin .varint⟩]
  distinct := by decide

example : parcels.validate = .ok () := by cbv

end Namespace

end SchemaWire
