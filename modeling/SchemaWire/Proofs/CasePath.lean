import SchemaWire.Codec.CasePath
import SchemaWire.Proofs.Bindings

/-! The search for a case path finds a chain of cases whenever there is one.

A chain enters an enum and goes on from one of its cases. The search crosses out every enum it
enters; that loses no target, because a chain can always be cut at its last visit to the enum. It
also keeps the chain that is found from entering an enum twice.
-/

set_option autoImplicit false

namespace SchemaWire

theorem Definition.kind_eq_enum_iff {definition : Definition} :
    definition.kind = .enum ↔ ∃ cases, definition.shape = .enum cases := by
  cases shape : definition.shape <;> simp [kind, shape, Shape.kind]

theorem Definition.kind_ne_enum_iff {definition : Definition} :
    definition.kind ≠ .enum ↔ ∀ cases, definition.shape ≠ .enum cases := by
  rw [ne_eq, kind_eq_enum_iff, not_exists]

/-- The cases that lead from one type to another, each a case of the enum before it. -/
inductive CaseChain (definitions : List Definition) : String → List String → String → Prop where
  | here (type : String) : CaseChain definitions type [] type
  | step {definition : Definition} {case target : String} {path : List String} :
      definition ∈ definitions → definition.kind = .enum → case ∈ definition.resolvedReferences →
      CaseChain definitions case path target →
      CaseChain definitions definition.name (case :: path) target

namespace CaseChain

variable {definitions larger : List Definition} {start middle target : String}
  {path later : List String}

theorem mono (chain : CaseChain definitions start path target) (subset : definitions ⊆ larger) :
    CaseChain larger start path target := by
  induction chain with
  | here type => exact .here type
  | step member enum case _ ih => exact .step (subset member) enum case ih

theorem append (chain : CaseChain definitions start path middle)
    (rest : CaseChain definitions middle later target) :
    CaseChain definitions start (path ++ later) target := by
  induction chain with
  | here _ => exact rest
  | step member enum case _ ih => exact .step member enum case (ih rest)

theorem path_ne_nil (chain : CaseChain definitions start path target) (distinct : start ≠ target) :
    path ≠ [] := by
  rintro rfl
  cases chain
  exact distinct rfl

theorem first_enum (chain : CaseChain definitions start path target) (moves : path ≠ []) :
    ∃ definition ∈ definitions, definition.name = start ∧ definition.kind = .enum := by
  cases chain with
  | here _ => exact absurd rfl moves
  | step member enum _ _ => exact ⟨_, member, rfl, enum⟩

theorem exists_enum (chain : CaseChain definitions start path target) {name : String}
    (entered : name ∈ (start :: path).dropLast) :
    ∃ definition ∈ definitions, definition.name = name ∧ definition.kind = .enum := by
  induction chain with
  | here _ => cases entered
  | step member enum _ _ ih =>
    rw [List.dropLast_cons_cons] at entered
    rcases List.mem_cons.1 entered with rfl | entered
    · exact ⟨_, member, rfl, enum⟩
    · exact ih entered

/-- Cut a chain at its last visit to a definition: either it never comes there, or one of the cases
leads on without coming back. -/
theorem cut (chain : CaseChain definitions start path target) (visited : Definition) :
    CaseChain (definitions.erase visited) start path target ∨
      ∃ case ∈ visited.resolvedReferences, ∃ rest,
        CaseChain (definitions.erase visited) case rest target := by
  induction chain with
  | here type => exact .inl (.here type)
  | @step definition case target path member enum reference _ ih =>
    -- The chain behind the first case is cut already; a visit there is later than one here.
    rcases ih with clear | again
    · by_cases same : definition = visited
      · exact .inr ⟨case, same ▸ reference, path, clear⟩
      · exact .inl (.step ((List.mem_erase_of_ne same).2 member) enum reference clear)
    · exact .inr again

end CaseChain

namespace Namespace

variable {target : String}

/-! ## The search -/

section Steps

variable {unseen : List Definition} {pending : List (List String × String)} {path : List String}
  {name : String} {definition : Definition}

theorem searchCase_of_missing (missing : unseen.find? (·.name == name) = none) :
    searchCase target unseen ((path, name) :: pending) = searchCase target unseen pending := by
  rw [searchCase]
  split
  · rfl
  · rename_i found
    cases missing.symm.trans found

theorem searchCase_of_enum (lookup : unseen.find? (·.name == name) = some definition)
    (enum : definition.kind = .enum) :
    searchCase target unseen ((path, name) :: pending) =
      if definition.resolvedReferences.contains target then some (path ++ [target])
      else
        searchCase target (unseen.erase definition)
          (definition.resolvedReferences.map (fun name => (path ++ [name], name)) ++ pending) := by
  rw [searchCase]
  split
  · rename_i missing
    cases lookup.symm.trans missing
  · rename_i found
    cases lookup.symm.trans found
    split
    · rfl
    · rename_i noEnum
      obtain ⟨references, shape⟩ := Definition.kind_eq_enum_iff.1 enum
      exact absurd shape (noEnum references)

theorem searchCase_of_concrete (lookup : unseen.find? (·.name == name) = some definition)
    (concrete : definition.kind ≠ .enum) :
    searchCase target unseen ((path, name) :: pending) = searchCase target unseen pending := by
  rw [searchCase]
  split
  · rfl
  · rename_i found
    cases lookup.symm.trans found
    split
    · rename_i shape
      exact absurd (Definition.kind_eq_enum_iff.2 ⟨_, shape⟩) concrete
    · rfl

end Steps

/-- What is found is a chain from a pending name that enters no enum twice. -/
theorem caseChain_of_searchCase {unseen : List Definition} {pending : List (List String × String)}
    {result : List String} (distinct : (unseen.map (·.name)).Nodup)
    (found : searchCase target unseen pending = some result) :
    ∃ entry ∈ pending, ∃ later, result = entry.1 ++ later ∧
      CaseChain unseen entry.2 later target ∧ (entry.2 :: later).dropLast.Nodup := by
  fun_induction searchCase target unseen pending with
  | case1 => cases found
  | case2 unseen path name pending _ ih =>
    obtain ⟨entry, member, later, shape, chain⟩ := ih distinct found
    exact ⟨entry, List.mem_cons_of_mem _ member, later, shape, chain⟩
  | case3 unseen path name pending definition lookup _ isEnum cases direct =>
    -- A direct case ends the search with a chain of one case.
    obtain rfl := name_of_lookup lookup
    cases found
    refine ⟨_, List.mem_cons_self, [target], rfl, ?_, by simp⟩
    exact .step (List.mem_of_find?_eq_some lookup) (Definition.kind_eq_enum_iff.2 ⟨_, isEnum⟩)
      (List.contains_iff_mem.1 direct) (.here target)
  | case4 unseen path name pending definition lookup _ isEnum cases _ ih =>
    obtain ⟨entry, member, later, rfl, chain, once⟩ :=
      ih (distinct.sublist (List.erase_sublist.map _)) found
    have known := List.mem_of_find?_eq_some lookup
    -- What was found without the definition is a chain with it as well.
    have wider := chain.mono (List.erase_sublist.subset)
    rcases List.mem_append.1 member with nested | member
    · obtain rfl := name_of_lookup lookup
      obtain ⟨case, reference, rfl⟩ := List.mem_map.1 nested
      refine ⟨_, List.mem_cons_self, case :: later, by simp, ?_, ?_⟩
      · exact .step known (Definition.kind_eq_enum_iff.2 ⟨_, isEnum⟩) reference wider
      · -- The rest of the chain does without the definition, so it does not enter it again.
        rw [List.dropLast_cons_cons]
        refine List.nodup_cons.2 ⟨fun again => ?_, once⟩
        obtain ⟨other, remaining, sameName, _⟩ := chain.exists_enum again
        have same := List.inj_on_of_nodup_map distinct (List.erase_sublist.subset remaining) known sameName
        exact (List.Nodup.of_map _ distinct).not_mem_erase (same ▸ remaining)
    · exact ⟨entry, List.mem_cons_of_mem _ member, later, rfl, wider, once⟩
  | case5 unseen path name pending _ _ _ ih =>
    obtain ⟨entry, member, later, shape, chain⟩ := ih distinct found
    exact ⟨entry, List.mem_cons_of_mem _ member, later, shape, chain⟩

theorem no_caseChain_of_searchCase {unseen : List Definition}
    {pending : List (List String × String)} (distinct : (unseen.map (·.name)).Nodup)
    (failed : searchCase target unseen pending = none) {entry : List String × String}
    (member : entry ∈ pending) {later : List String} (moves : later ≠ []) :
    ¬ CaseChain unseen entry.2 later target := by
  fun_induction searchCase target unseen pending generalizing entry later with
  | case1 => cases member
  | case2 unseen path name pending unknown ih =>
    rcases List.mem_cons.1 member with rfl | member
    · intro chain
      obtain ⟨definition, known, rfl, _⟩ := chain.first_enum moves
      simpa using List.find?_eq_none.1 unknown definition known
    · exact ih distinct failed member moves
  | case3 => cases failed
  | case4 unseen path name pending definition lookup _ isEnum cases indirect ih =>
    have behind := @ih (distinct.sublist (List.erase_sublist.map _)) failed
    have known := List.mem_of_find?_eq_some lookup
    intro chain
    -- The search goes on without the definition, so the chain has to do without it as well.
    rcases chain.cut definition with clear | ⟨case, reference, rest, clear⟩
    · rcases List.mem_cons.1 member with rfl | member
      · -- A chain from the definition itself has to visit it.
        obtain ⟨first, remaining, sameName, _⟩ := clear.first_enum moves
        have same := List.inj_on_of_nodup_map distinct (List.erase_sublist.subset remaining) known
          (sameName.trans (name_of_lookup lookup).symm)
        exact (List.Nodup.of_map _ distinct).not_mem_erase (same ▸ remaining)
      · exact behind (List.mem_append_right _ member) moves clear
    · by_cases arrived : case = target
      · exact indirect (List.contains_iff_mem.2 (arrived ▸ reference))
      · exact behind (List.mem_append_left _ (List.mem_map_of_mem reference))
          (clear.path_ne_nil arrived) clear
  | case5 unseen path name pending definition lookup noEnum ih =>
    -- No chain goes on from a concrete type.
    rcases List.mem_cons.1 member with rfl | member
    · intro chain
      obtain ⟨first, known, sameName, enum⟩ := chain.first_enum moves
      have same := List.inj_on_of_nodup_map distinct known (List.mem_of_find?_eq_some lookup)
        (sameName.trans (name_of_lookup lookup).symm)
      exact Definition.kind_ne_enum_iff.2 noEnum (same ▸ enum)
    · exact ih distinct failed member moves

/-! ## The path -/

theorem casePath?_self (types : Namespace) (type : String) :
    types.casePath? type type = some [] := by
  rw [casePath?, if_pos rfl]

theorem simpleChain_of_casePath? {types : Namespace} {expected : String} {path : List String}
    (found : types.casePath? expected target = some path) :
    CaseChain types.definitions expected path target ∧ (expected :: path).dropLast.Nodup := by
  simp only [casePath?] at found
  split at found
  · rename_i same
    cases found
    exact ⟨same ▸ .here expected, List.nodup_nil⟩
  · obtain ⟨entry, member, later, rfl, chain⟩ := caseChain_of_searchCase types.distinct found
    obtain rfl := List.mem_singleton.1 member
    exact chain

theorem caseChain_of_casePath? {types : Namespace} {expected : String} {path : List String}
    (found : types.casePath? expected target = some path) :
    CaseChain types.definitions expected path target :=
  (simpleChain_of_casePath? found).1

theorem casePath?_of_case {types : Namespace} {expected : String} {definition : Definition}
    (distinct : expected ≠ target) (found : types.find? expected = some definition)
    (enum : definition.kind = .enum) (reference : target ∈ definition.resolvedReferences) :
    types.casePath? expected target = some [target] := by
  rw [casePath?, if_neg distinct, searchCase_of_enum found enum,
    if_pos (List.contains_iff_mem.2 reference)]
  rfl

theorem exists_casePath?_of_caseChain {types : Namespace} {expected : String} {path : List String}
    (chain : CaseChain types.definitions expected path target) :
    ∃ found, types.casePath? expected target = some found := by
  simp only [casePath?]
  split
  · exact ⟨[], rfl⟩
  · rename_i distinct
    cases result : searchCase target types.definitions [([], expected)] with
    | some found => exact ⟨found, rfl⟩
    | none =>
      have pending : ([], expected) ∈ [(([] : List String), expected)] := List.mem_singleton.2 rfl
      exact absurd chain (no_caseChain_of_searchCase types.distinct result pending
        (chain.path_ne_nil distinct))

theorem casePath?_eq_none_iff {types : Namespace} {expected target : String} :
    types.casePath? expected target = none ↔
      ¬ ∃ path, CaseChain types.definitions expected path target := by
  constructor
  · rintro missing ⟨path, chain⟩
    obtain ⟨found, reached⟩ := exists_casePath?_of_caseChain chain
    cases missing.symm.trans reached
  · intro none
    rw [Option.eq_none_iff_forall_ne_some]
    intro path reached
    exact none ⟨path, caseChain_of_casePath? reached⟩

/-- A path from one type down to another is found just when a chain of cases leads there. The path
is such a chain, it enters no enum twice, and it is as short as can be for a direct case. -/
theorem casePath?_finds_chain (types : Namespace) (expected target : String) :
    types.casePath? expected expected = some [] ∧
    (expected ≠ target →
      ((∃ path, types.casePath? expected target = some path) ↔
        ∃ path, path ≠ [] ∧ CaseChain types.definitions expected path target) ∧
      (∀ path, types.casePath? expected target = some path →
        path ≠ [] ∧ CaseChain types.definitions expected path target ∧
          (expected :: path).dropLast.Nodup) ∧
      ∀ definition, types.find? expected = some definition → definition.kind = .enum →
        target ∈ definition.resolvedReferences →
        types.casePath? expected target = some [target]) := by
  refine ⟨casePath?_self types expected, fun distinct => ⟨?_, ?_, ?_⟩⟩
  · constructor
    · intro ⟨path, found⟩
      have chain := caseChain_of_casePath? found
      exact ⟨path, chain.path_ne_nil distinct, chain⟩
    · intro ⟨path, _, chain⟩
      exact exists_casePath?_of_caseChain chain
  · intro path found
    obtain ⟨chain, once⟩ := simpleChain_of_casePath? found
    exact ⟨chain.path_ne_nil distinct, chain, once⟩
  · intro definition found enum reference
    exact casePath?_of_case distinct found enum reference

/-- Both enums are cases of each other and one of itself as well, and one case is not bound; the way
out is found through the second enum. -/
theorem casePath?_finds_chain_parity :
    ∃ types : Namespace,
      types.definitions =
        [⟨"Even", .enum [.self, .named "Odd", .named "Ghost", .named "Odd"]⟩,
          ⟨"Odd", .enum [.named "Even", .named "Zero"]⟩, ⟨"Zero", .singleton⟩] ∧
      "Even" ≠ "Zero" ∧ types.casePath? "Even" "Zero" = some ["Odd", "Zero"] ∧
      CaseChain types.definitions "Even" ["Odd", "Zero"] "Zero" ∧ ["Even", "Odd"].Nodup ∧
      (¬ ∃ path, path ≠ [] ∧ CaseChain types.definitions "Zero" path "Even") ∧
      types.casePath? "Odd" "Zero" = some ["Zero"] := by
  let odd : Definition := ⟨"Odd", .enum [.named "Even", .named "Zero"]⟩
  let types : Namespace :=
    ⟨[⟨"Even", .enum [.self, .named "Odd", .named "Ghost", .named "Odd"]⟩, odd,
      ⟨"Zero", .singleton⟩], by decide⟩
  have found : types.casePath? "Even" "Zero" = some ["Odd", "Zero"] := by cbv
  have missing : types.casePath? "Zero" "Even" = none := by cbv
  obtain ⟨-, chain, once⟩ :=
    ((casePath?_finds_chain types "Even" "Zero").2 (by decide)).2.1 _ found
  have noChain := mt ((casePath?_finds_chain types "Zero" "Even").2 (by decide)).1.2
  have direct := ((casePath?_finds_chain types "Odd" "Zero").2 (by decide)).2.2 odd (by cbv) rfl
    (by decide)
  exact ⟨types, rfl, by decide, found, chain, once, noChain (by simp [missing]), direct⟩

end Namespace

end SchemaWire
