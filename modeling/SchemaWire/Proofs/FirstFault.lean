import Mathlib.Data.List.Induction
import SchemaWire.Proofs.DepthFirst

/-! Which definition keeps definitions from forming a namespace, and which name keeps a namespace
from being valid.

Binding fails at the first definition whose name is reserved or taken by one in front of it. A
namespace that has been built is valid just when every reference in it is bound, and otherwise the
first unbound name of the depth-first preorder is reported.
-/

set_option autoImplicit false

namespace SchemaWire.Namespace

variable {types : Namespace} {definitions front back : List Definition} {new old : Definition}
  {error : NamespaceError}

/-! ## Binding -/

/-- The first definition that cannot be bound behind those in front of it. -/
inductive FirstFault : List Definition → NamespaceError → Prop where
  | reserved {front back : List Definition} {new : Definition} :
      Bindable front → new.name = TypeRef.selfWord →
      FirstFault (front ++ new :: back) (.reservedName TypeRef.selfWord)
  | taken {front back : List Definition} {new old : Definition} :
      Bindable front → new.name ≠ TypeRef.selfWord → old ∈ front → old.name = new.name →
      FirstFault (front ++ new :: back) (.duplicateBinding new old)

theorem FirstFault.append (fault : FirstFault front error) (back : List Definition) :
    FirstFault (front ++ back) error := by
  cases fault with
  | reserved bindable same =>
    rw [List.append_assoc, List.cons_append]
    exact .reserved bindable same
  | taken bindable free member same =>
    rw [List.append_assoc, List.cons_append]
    exact .taken bindable free member same

theorem find?_of_build (built : build definitions = .ok types) {name : String}
    {definition : Definition} :
    types.find? name = some definition ↔ definition ∈ definitions ∧ definition.name = name := by
  rw [find?_eq_some_iff, (perm_of_build built).mem_iff]

theorem build_append (front back : List Definition) :
    build (front ++ back) = build front >>= fun types => back.foldlM bind types := by
  rw [build, List.foldlM_append]
  rfl

theorem bind_reserved (same : new.name = TypeRef.selfWord) :
    types.bind new = .error (.reservedName TypeRef.selfWord) := by
  rw [bind, if_pos same]

theorem bind_taken (free : new.name ≠ TypeRef.selfWord)
    (found : types.find? new.name = some old) :
    types.bind new = .error (.duplicateBinding new old) := by
  rw [bind, if_neg free]
  split
  · rename_i other foundOther
    cases found.symm.trans foundOther
    rfl
  · rename_i missing
    cases found.symm.trans missing

theorem exists_bind (free : new.name ≠ TypeRef.selfWord) (missing : types.find? new.name = none) :
    ∃ result, types.bind new = .ok result := by
  rw [bind, if_neg free]
  split
  · rename_i found
    cases missing.symm.trans found
  · exact ⟨_, rfl⟩

theorem build_eq_error_iff : build definitions = .error error ↔ FirstFault definitions error := by
  constructor
  · intro failed
    induction definitions using List.reverseRecOn with
    | nil => cases failed
    | append_singleton front new ih =>
      rw [build_append] at failed
      cases built : build front with
      | error earlier =>
        rw [built] at failed
        cases failed
        exact (ih built).append [new]
      | ok types =>
        -- The definitions in front are bound, so it is the last one that fails.
        have bindable := exists_build_iff.1 ⟨types, built⟩
        rw [built, Outcome.ok_bind, List.foldlM_cons] at failed
        by_cases free : new.name = TypeRef.selfWord
        · rw [bind_reserved free] at failed
          cases failed
          exact .reserved bindable free
        cases found : types.find? new.name with
        | none =>
          obtain ⟨result, bound⟩ := exists_bind free found
          rw [bound] at failed
          cases failed
        | some old =>
          rw [bind_taken free found] at failed
          cases failed
          obtain ⟨member, same⟩ := (find?_of_build built).1 found
          exact .taken bindable free member same
  · intro fault
    cases fault with
    | reserved bindable same =>
      obtain ⟨types, built⟩ := exists_build_iff.2 bindable
      rw [build_append, built, Outcome.ok_bind, List.foldlM_cons, bind_reserved same]
      rfl
    | taken bindable free member same =>
      obtain ⟨types, built⟩ := exists_build_iff.2 bindable
      have found := (find?_of_build built).2 ⟨member, same⟩
      rw [build_append, built, Outcome.ok_bind, List.foldlM_cons, bind_taken free found]
      rfl

/-! ## Well-formedness -/

theorem contains_of_build (built : build definitions = .ok types) {name : String} :
    types.contains name = true ↔ ∃ definition ∈ definitions, definition.name = name := by
  rw [contains_iff]
  exact exists_congr fun definition => find?_of_build built

/-- Definitions form a namespace unless there is a first one among them whose name is reserved or
taken, which is then reported. The namespace is valid just when every reference of the definitions
is the name of one of them; otherwise the depth-first preorder that starts from the bound names in
ascending order meets a first name that is not bound, and that is reported. -/
theorem build_then_validate (definitions : List Definition) :
    (∀ error, build definitions = .error error ↔ FirstFault definitions error) ∧
    ((∃ types, build definitions = .ok types) ↔ Bindable definitions) ∧
    ∀ types, build definitions = .ok types →
      (∀ name definition, types.find? name = some definition ↔
        definition ∈ definitions ∧ definition.name = name) ∧
      (types.validate = .ok () ↔ ∀ definition ∈ definitions,
        ∀ name ∈ definition.resolvedReferences, ∃ bound ∈ definitions, bound.name = name) ∧
      types.names.Pairwise (· < ·) ∧
      ∃ met, DepthFirst types.referred [] types.names met ∧
        (∀ other, DepthFirst types.referred [] types.names other → other = met) ∧
        (∀ error, types.validate = .error error ↔
          ∃ name before after, error = .undefinedType name ∧ met = before ++ name :: after ∧
            (∀ earlier ∈ before, types.contains earlier = true) ∧
            types.contains name = false) ∧
        ∀ name, types.validate = .error (.undefinedType name) →
          types.contains name = false ∧
            ∃ definition ∈ definitions, name ∈ definition.resolvedReferences := by
  refine ⟨fun error => build_eq_error_iff, exists_build_iff, ?_⟩
  intro types built
  have held := perm_of_build built
  obtain ⟨met, walk⟩ := types.exists_preorder
  refine ⟨fun name definition => find?_of_build built, ?_, types.ascending_names,
    met, walk, fun other => walk.unique, fun error => validate_eq_error_iff walk, ?_⟩
  · rw [validate_eq_ok_iff]
    simp only [Closed, held.mem_iff, contains_of_build built]
  · intro name failed
    obtain ⟨unbound, definition, member, reference⟩ := referred_of_validate failed
    exact ⟨unbound, definition, held.mem_iff.1 member, reference⟩

/-- The two enums refer to each other. The walk enters the second one from the first and meets the
unbound name behind it before the one that the first enum refers to. -/
theorem build_then_validate_ring :
    let ring : Definition := ⟨"Ring", .enum [.self, .named "Song", .named "Far"]⟩
    let song : Definition := ⟨"Song", .enum [.named "Ring", .named "Near"]⟩
    ∃ types, build [song, ring] = .ok types ∧
      DepthFirst types.referred [] types.names ["Ring", "Song", "Near", "Far"] ∧
      types.validate = .error (.undefinedType "Near") ∧
      build [song, ring, song] = .error (.duplicateBinding song song) := by
  intro ring song
  have built : build [song, ring] = .ok ⟨[ring, song], by decide⟩ := by cbv
  obtain ⟨-, -, decided⟩ := build_then_validate [song, ring]
  obtain ⟨-, -, -, met, walk, only, reported, -⟩ := decided _ built
  let types : Namespace := ⟨[ring, song], by decide⟩
  have behindSong : DepthFirst types.referred ["Song", "Ring"] ["Ring", "Near"]
      ("Near" :: [] ++ []) :=
    .again (by decide) (.enter (by decide) (.done _) (.done _))
  have behindRing : DepthFirst types.referred ["Ring"] ["Ring", "Song", "Far"]
      ("Song" :: ["Near"] ++ ("Far" :: [] ++ [])) :=
    .again (by decide) (.enter (by decide) behindSong
      (.enter (by decide) (.done _) (.done _)))
  have listed : DepthFirst types.referred [] ["Ring", "Song"]
      ("Ring" :: ["Song", "Near", "Far"] ++ []) :=
    .enter (by decide) behindRing (.again (by decide) (.done _))
  have sorted : types.names = ["Ring", "Song"] := by cbv
  obtain rfl := only _ (sorted ▸ listed)
  refine ⟨_, built, walk, (reported _).2 ⟨"Near", ["Ring", "Song"], ["Far"], rfl, rfl, ?_, ?_⟩, ?_⟩
  · decide
  · decide
  · obtain ⟨faults, -⟩ := build_then_validate [song, ring, song]
    apply (faults _).2
    have front : Bindable [song, ring] := ⟨by decide, by decide⟩
    show FirstFault ([song, ring] ++ song :: []) _
    exact .taken front (by decide) List.mem_cons_self rfl

end SchemaWire.Namespace
