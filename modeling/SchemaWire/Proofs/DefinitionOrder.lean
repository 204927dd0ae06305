import SchemaWire.Proofs.CasePath
import SchemaWire.Proofs.Outcome
import SchemaWire.Proofs.Validation

/-! Definitions form a namespace in any order, and a namespace may hold them in any arrangement.

Names are sorted before anything is listed or numbered, and the sorted list depends on nothing but
which names there are. Definitions are looked up by name, so that a walk or a search through them
takes the same way in every arrangement.
-/

set_option autoImplicit false

namespace SchemaWire.Namespace

variable {types other : Namespace} {definitions : List Definition}

/-! ## Binding -/

theorem bind_eq_ok_iff {result : Namespace} {new : Definition} :
    types.bind new = .ok result ↔
      new.name ≠ TypeRef.selfWord ∧ result.definitions = new :: types.definitions := by
  rw [bind]
  constructor
  · intro bound
    split at bound
    · cases bound
    · rename_i free
      split at bound
      · cases bound
      · cases bound
        exact ⟨free, rfl⟩
  · rintro ⟨free, held⟩
    rw [if_neg free]
    split
    · rename_i old found
      -- The name would be bound twice.
      obtain ⟨member, same⟩ := find?_eq_some_iff.1 found
      have distinct := result.distinct
      rw [held, List.map_cons, List.nodup_cons] at distinct
      exact absurd (List.mem_map.2 ⟨old, member, same⟩) distinct.1
    · exact congrArg Except.ok (Namespace.ext held.symm)

theorem foldlM_bind_eq_ok_iff {result : Namespace} :
    definitions.foldlM bind types = .ok result ↔
      (∀ definition ∈ definitions, definition.name ≠ TypeRef.selfWord) ∧
        result.definitions = definitions.reverse ++ types.definitions := by
  induction definitions generalizing types with
  | nil =>
    constructor
    · intro built
      cases built
      exact ⟨nofun, rfl⟩
    · intro ⟨_, held⟩
      exact congrArg Except.ok (Namespace.ext held.symm)
  | cons new later ih =>
    rw [List.foldlM_cons, Outcome.bind_eq_ok_iff, List.forall_mem_cons, List.reverse_cons,
      List.append_assoc, List.singleton_append]
    constructor
    · intro ⟨next, bound, built⟩
      obtain ⟨free, held⟩ := bind_eq_ok_iff.1 bound
      obtain ⟨laterFree, laterHeld⟩ := ih.1 built
      exact ⟨⟨free, laterFree⟩, held ▸ laterHeld⟩
    · intro ⟨⟨free, laterFree⟩, held⟩
      have distinct := result.distinct
      rw [held, List.map_append] at distinct
      let next : Namespace := ⟨new :: types.definitions, (List.nodup_append.1 distinct).2.1⟩
      exact ⟨next, bind_eq_ok_iff.2 ⟨free, rfl⟩, ih.2 ⟨laterFree, held⟩⟩

theorem build_eq_ok_iff :
    build definitions = .ok types ↔
      (∀ definition ∈ definitions, definition.name ≠ TypeRef.selfWord) ∧
        types.definitions = definitions.reverse := by
  rw [build, foldlM_bind_eq_ok_iff, empty, List.append_nil]

theorem perm_of_build (built : build definitions = .ok types) :
    types.definitions.Perm definitions := by
  rw [(build_eq_ok_iff.1 built).2]
  exact List.reverse_perm definitions

structure Bindable (definitions : List Definition) : Prop where
  free : ∀ definition ∈ definitions, definition.name ≠ TypeRef.selfWord
  distinct : (definitions.map (·.name)).Nodup

theorem exists_build_iff : (∃ types, build definitions = .ok types) ↔ Bindable definitions := by
  constructor
  · intro ⟨types, built⟩
    exact ⟨(build_eq_ok_iff.1 built).1,
      ((perm_of_build built).map (·.name)).nodup_iff.1 types.distinct⟩
  · intro ⟨free, distinct⟩
    rw [← List.nodup_reverse, ← List.map_reverse] at distinct
    exact ⟨⟨definitions.reverse, distinct⟩, build_eq_ok_iff.2 ⟨free, rfl⟩⟩

theorem Bindable.of_perm (bindable : Bindable definitions) {reordered : List Definition}
    (perm : definitions.Perm reordered) : Bindable reordered where
  free definition member := bindable.free definition (perm.mem_iff.2 member)
  distinct := (perm.map (·.name)).nodup_iff.1 bindable.distinct

/-! ## Lookup and lists -/

theorem lookup_of_perm {unseen left : List Definition}
    (distinct : (unseen.map (·.name)).Nodup) (perm : unseen.Perm left) (name : String) :
    unseen.find? (·.name == name) = left.find? (·.name == name) := by
  ext definition
  have leftDistinct := (perm.map (·.name)).nodup_iff.1 distinct
  rw [find?_key_eq_some_iff distinct, find?_key_eq_some_iff leftDistinct, perm.mem_iff]

theorem same_iff : types.Same other ↔ ∀ name, types.find? name = other.find? name := by
  constructor
  · intro same
    exact lookup_of_perm types.distinct same
  · intro finds
    apply (List.perm_ext_iff_of_nodup types.nodup_definitions other.nodup_definitions).2
    intro definition
    have found := congrArg (· = some definition) (finds definition.name)
    simpa only [find?_eq_some_iff, and_true, eq_iff_iff] using found

theorem eq_of_ascending {names sorted : List String} (ascending : names.Pairwise (· < ·))
    (sortedAscending : sorted.Pairwise (· < ·)) (perm : names.Perm sorted) : names = sorted := by
  apply perm.eq_of_pairwise _ ascending sortedAscending
  intro first second _ _ below above
  exact absurd below (String.lt_asymm above)

namespace Same

variable (same : types.Same other)
include same

theorem find? (name : String) : types.find? name = other.find? name := same_iff.1 same name

theorem contains (name : String) : types.contains name = other.contains name :=
  congrArg Option.isSome (same.find? name)

theorem names : types.names = other.names :=
  eq_of_ascending types.ascending_names other.ascending_names
    (types.names_perm.trans ((same.map (·.name)).trans other.names_perm.symm))

theorem ordered : types.ordered = other.ordered := by
  have finds : types.find? = other.find? := funext same.find?
  rw [Namespace.ordered, Namespace.ordered, same.names, finds]

theorem render : types.render = other.render := by
  rw [Namespace.render, Namespace.render, same.ordered]

theorem assign : IdentifierTable.assign types = .assign other := by
  simp only [IdentifierTable.assign, same.names]

end Same

/-- The names can be sorted from any arrangement of the definitions. -/
theorem names_eq_mergeSort (held : types.definitions.Perm definitions) :
    types.names = (definitions.map (·.name)).mergeSort (· ≤ ·) := by
  have distinct := (held.map (·.name)).nodup_iff.1 types.distinct
  let other : Namespace := ⟨definitions, distinct⟩
  have same : types.Same other := held
  exact same.names

/-! ## Walking -/

theorem follow_of_lookup {unseen : List Definition} {pending : List String} {name : String}
    {definition : Definition} (lookup : unseen.find? (·.name == name) = some definition) :
    types.follow unseen (name :: pending) =
      types.follow (unseen.erase definition) (definition.resolvedReferences ++ pending) := by
  rw [follow]
  split
  · rename_i found
    cases lookup.symm.trans found
    rfl
  · rename_i missing
    cases lookup.symm.trans missing

theorem follow_of_missing {unseen : List Definition} {pending : List String} {name : String}
    (missing : unseen.find? (·.name == name) = none) :
    types.follow unseen (name :: pending) =
      if types.contains name then types.follow unseen pending
      else .error (.undefinedType name) := by
  rw [follow]
  split
  · rename_i found
    cases missing.symm.trans found
  · rfl

/-- A walk may hold the definitions that it has not entered in any arrangement. -/
theorem follow_of_perm (same : types.Same other) {unseen left : List Definition}
    {pending : List String} (distinct : (unseen.map (·.name)).Nodup) (perm : unseen.Perm left) :
    types.follow unseen pending = other.follow left pending := by
  fun_induction follow types unseen pending generalizing left with
  | case1 => rw [follow]
  | case2 unseen name pending definition lookup ih =>
    rw [lookup_of_perm distinct perm name] at lookup
    rw [follow_of_lookup lookup]
    exact ih (distinct.sublist (List.erase_sublist.map _)) (perm.erase definition)
  | case3 unseen name pending missing bound ih =>
    rw [lookup_of_perm distinct perm name] at missing
    rw [follow_of_missing missing, ← same.contains, if_pos bound]
    exact ih distinct perm
  | case4 unseen name pending missing unbound =>
    rw [lookup_of_perm distinct perm name] at missing
    rw [follow_of_missing missing, ← same.contains, if_neg unbound]

theorem Same.validate (same : types.Same other) : types.validate = other.validate := by
  rw [Namespace.validate, Namespace.validate, ← same.names, follow_of_perm same types.distinct same]

/-! ## Searching -/

/-- So may a search for a case. -/
theorem searchCase_of_perm {target : String} {unseen left : List Definition}
    {pending : List (List String × String)} (distinct : (unseen.map (·.name)).Nodup)
    (perm : unseen.Perm left) : searchCase target unseen pending = searchCase target left pending := by
  fun_induction searchCase target unseen pending generalizing left with
  | case1 => rw [searchCase]
  | case2 unseen path name pending missing ih =>
    rw [lookup_of_perm distinct perm name] at missing
    rw [searchCase_of_missing missing]
    exact ih distinct perm
  | case3 unseen path name pending definition lookup _ isEnum cases =>
    rename_i direct
    rw [lookup_of_perm distinct perm name] at lookup
    rw [searchCase_of_enum lookup (Definition.kind_eq_enum_iff.2 ⟨_, isEnum⟩), if_pos direct]
  | case4 unseen path name pending definition lookup _ isEnum cases indirect =>
    rename_i ih
    rw [lookup_of_perm distinct perm name] at lookup
    rw [searchCase_of_enum lookup (Definition.kind_eq_enum_iff.2 ⟨_, isEnum⟩), if_neg indirect]
    exact ih (distinct.sublist (List.erase_sublist.map _)) (perm.erase definition)
  | case5 unseen path name pending definition lookup noEnum ih =>
    rw [lookup_of_perm distinct perm name] at lookup
    rw [searchCase_of_concrete lookup (Definition.kind_ne_enum_iff.2 noEnum)]
    exact ih distinct perm

theorem Same.casePath? (same : types.Same other) (expected target : String) :
    types.casePath? expected target = other.casePath? expected target := by
  rw [Namespace.casePath?, Namespace.casePath?, searchCase_of_perm types.distinct same]

end SchemaWire.Namespace
