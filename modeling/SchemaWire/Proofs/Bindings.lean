import Mathlib.Data.List.Permutation
import SchemaWire.Schema.IdentifierTable

/-! Names stand for one definition and for one identifier each.

The definitions of a namespace and the entries of a table are in no particular order, so whatever is
looked up in them is known from its name alone.
-/

set_option autoImplicit false

namespace SchemaWire

/-- Where keys are distinct, what is found under a key is the one entry that has it. -/
theorem find?_key_eq_some_iff {α : Type} {key : α → String} {entries : List α}
    (distinct : (entries.map key).Nodup) {name : String} {entry : α} :
    entries.find? (key · == name) = some entry ↔ entry ∈ entries ∧ key entry = name := by
  constructor
  · intro found
    exact ⟨List.mem_of_find?_eq_some found, by simpa using List.find?_some found⟩
  · rintro ⟨member, rfl⟩
    cases found : entries.find? (key · == key entry) with
    | none => simpa using List.find?_eq_none.1 found entry member
    | some other =>
      have named : key other = key entry := by simpa using List.find?_some found
      rw [List.inj_on_of_nodup_map distinct (List.mem_of_find?_eq_some found) member named]

namespace Namespace

variable {types : Namespace} {name : String} {definition : Definition}

/-! ## Definitions -/

theorem name_of_lookup {definitions : List Definition}
    (found : definitions.find? (·.name == name) = some definition) : definition.name = name := by
  simpa using List.find?_some found

theorem find?_eq_some_iff :
    types.find? name = some definition ↔
      definition ∈ types.definitions ∧ definition.name = name :=
  find?_key_eq_some_iff types.distinct

theorem find?_name (member : definition ∈ types.definitions) :
    types.find? definition.name = some definition :=
  find?_eq_some_iff.2 ⟨member, rfl⟩

theorem contains_iff :
    types.contains name = true ↔ ∃ definition, types.find? name = some definition :=
  Option.isSome_iff_exists

theorem nodup_definitions (types : Namespace) : types.definitions.Nodup :=
  .of_map _ types.distinct

/-! ## Order -/

theorem mem_names : name ∈ types.names ↔ types.contains name = true := by
  rw [types.names_perm.mem_iff, List.mem_map, contains_iff]
  simp only [find?_eq_some_iff]

theorem length_names (types : Namespace) : types.names.length = types.size := by
  rw [types.names_perm.length_eq, List.length_map, size]

theorem ordered_perm (types : Namespace) : types.ordered.Perm types.definitions := by
  have all : (types.definitions.map (·.name)).filterMap types.find? = types.definitions := by
    rw [List.filterMap_map]
    calc
      _ = types.definitions.filterMap some :=
        List.filterMap_congr fun definition member => find?_name member
      _ = types.definitions := List.filterMap_some
  have sorted := types.names_perm.filterMap types.find?
  rwa [all] at sorted

theorem map_name_ordered (types : Namespace) : types.ordered.map (·.name) = types.names := by
  rw [ordered, List.map_filterMap]
  calc
    _ = types.names.filterMap some := by
      apply List.filterMap_congr
      intro name bound
      obtain ⟨definition, found⟩ := contains_iff.1 (mem_names.1 bound)
      rw [found, Option.map_some, (find?_eq_some_iff.1 found).2]
    _ = types.names := List.filterMap_some

end Namespace

namespace IdentifierTable

variable {table : IdentifierTable} {identifier : Identifier} {name : String}

/-! ## Identifiers -/

theorem nodup_names (table : IdentifierTable) : table.names.Nodup := by
  refine table.ascending.imp ?_
  rintro first _ below rfl
  exact String.lt_irrefl _ below

theorem mem_byName :
    (name, identifier) ∈ table.byName ↔
      Identifier.first ≤ identifier ∧ table.names[identifier - Identifier.first]? = some name := by
  rw [table.numbered.mem_iff, List.mem_zipIdx_iff_le_and_getElem?_sub]

theorem nodup_byName (table : IdentifierTable) : (table.byName.map (·.1)).Nodup := by
  rw [(table.numbered.map (·.1)).nodup_iff, List.zipIdx_map_fst]
  exact table.nodup_names

/-- The map and the list stand for the same numbering. -/
theorem name?_eq_some_iff :
    table.name? identifier = some name ↔ table.identifier? name = some identifier := by
  have looked : table.identifier? name = some identifier ↔ (name, identifier) ∈ table.byName := by
    simp only [identifier?, Option.map_eq_some_iff, find?_key_eq_some_iff table.nodup_byName]
    constructor
    · rintro ⟨_, ⟨member, rfl⟩, rfl⟩
      exact member
    · intro member
      exact ⟨_, ⟨member, rfl⟩, rfl⟩
  rw [looked, mem_byName, name?, Option.ite_none_left_eq_some, Identifier.isReserved,
    decide_eq_true_eq, Nat.not_lt]

theorem name?_eq_some_iff_getElem? :
    table.name? identifier = some name ↔
      ∃ index, identifier = Identifier.first + index ∧ table.names[index]? = some name := by
  rw [name?, Option.ite_none_left_eq_some, Identifier.isReserved, decide_eq_true_eq, Nat.not_lt]
  constructor
  · rintro ⟨above, found⟩
    exact ⟨_, (Nat.add_sub_of_le above).symm, found⟩
  · rintro ⟨index, rfl, found⟩
    exact ⟨Nat.le_add_right _ _, by rwa [Nat.add_sub_cancel_left]⟩

theorem exists_identifier?_iff :
    (∃ identifier, table.identifier? name = some identifier) ↔ name ∈ table.names := by
  simp only [← name?_eq_some_iff, name?_eq_some_iff_getElem?]
  constructor
  · rintro ⟨_, index, -, found⟩
    exact List.mem_of_getElem? found
  · intro member
    obtain ⟨index, found⟩ := List.getElem?_of_mem member
    exact ⟨_, index, rfl, found⟩

theorem identifier?_eq_none_iff : table.identifier? name = none ↔ name ∉ table.names := by
  rw [← exists_identifier?_iff, Option.eq_none_iff_forall_ne_some, not_exists]

theorem mem_names_of_name? (named : table.name? identifier = some name) : name ∈ table.names := by
  obtain ⟨index, -, found⟩ := name?_eq_some_iff_getElem?.1 named
  exact List.mem_of_getElem? found

theorem first_le_of_name? (named : table.name? identifier = some name) :
    Identifier.first ≤ identifier := by
  obtain ⟨index, rfl, -⟩ := name?_eq_some_iff_getElem?.1 named
  exact Nat.le_add_right _ _

theorem identifier?_lt (numbered : table.identifier? name = some identifier) :
    identifier < table.size + Identifier.first := by
  obtain ⟨index, rfl, found⟩ := name?_eq_some_iff_getElem?.1 (name?_eq_some_iff.2 numbered)
  obtain ⟨bound, -⟩ := List.getElem?_eq_some_iff.1 found
  rw [Nat.add_comm]
  exact Nat.add_lt_add_right bound _

theorem size_assign (types : Namespace) : (assign types).size = types.size :=
  types.length_names

theorem mem_names_assign {types : Namespace} :
    name ∈ (assign types).names ↔ types.contains name = true :=
  Namespace.mem_names

end IdentifierTable

end SchemaWire
