import Mathlib.Data.List.Nodup
import SchemaWire.Proofs.DefinitionOrder

/-! Validation walks the references depth first and reports the first name that is not bound.

The order of such a walk is stated for itself, for any graph on names. It knows nothing of errors:
it goes on behind a name that is not bound as behind one that refers to nothing.
-/

set_option autoImplicit false

namespace SchemaWire

/-- The depth-first preorder of a graph. From the pending names in turn, `met` lists the names that
are entered: each before those behind it, and none that was entered before. -/
inductive DepthFirst (next : String → List String) :
    List String → List String → List String → Prop where
  | done (entered : List String) : DepthFirst next entered [] []
  | again {entered pending met : List String} {name : String} :
      name ∈ entered → DepthFirst next entered pending met →
      DepthFirst next entered (name :: pending) met
  | enter {entered pending inner later : List String} {name : String} :
      name ∉ entered → DepthFirst next (name :: entered) (next name) inner →
      DepthFirst next (inner ++ name :: entered) pending later →
      DepthFirst next entered (name :: pending) (name :: inner ++ later)

namespace DepthFirst

variable {next : String → List String} {entered pending met : List String}

theorem unique {other : List String} (walk : DepthFirst next entered pending met)
    (again : DepthFirst next entered pending other) : other = met := by
  induction walk generalizing other with
  | done entered =>
    cases again
    rfl
  | again seen _ ih =>
    cases again with
    | again _ rest => exact ih rest
    | enter fresh _ _ => exact absurd seen fresh
  | enter fresh _ _ innerIH laterIH =>
    cases again with
    | again seen _ => exact absurd seen fresh
    | enter _ first rest =>
      obtain rfl := innerIH first
      obtain rfl := laterIH rest
      rfl

theorem pending_or_behind (walk : DepthFirst next entered pending met) {name : String}
    (member : name ∈ met) : name ∈ pending ∨ ∃ before ∈ met, name ∈ next before := by
  induction walk with
  | done entered => cases member
  | again _ _ ih =>
    rcases ih member with waits | behind
    · exact .inl (List.mem_cons_of_mem _ waits)
    · exact .inr behind
  | @enter entered pending inner later first _ _ _ innerIH laterIH =>
    rw [List.cons_append] at member
    rcases List.mem_cons.1 member with rfl | member
    · exact .inl List.mem_cons_self
    rcases List.mem_append.1 member with member | member
    · rcases innerIH member with waits | ⟨before, listed, behind⟩
      · exact .inr ⟨first, List.mem_cons_self, waits⟩
      · exact .inr ⟨before, by simp [listed], behind⟩
    · rcases laterIH member with waits | ⟨before, listed, behind⟩
      · exact .inl (List.mem_cons_of_mem _ waits)
      · exact .inr ⟨before, by simp [listed], behind⟩

/-- A walk comes to an end when only finitely many names lead on: those that are left and those that
have been entered. -/
theorem exists_walk (left entered pending : List String)
    (leaf : ∀ name, name ∉ entered → name ∉ left → next name = []) :
    ∃ met, DepthFirst next entered pending met := by
  match pending with
  | [] => exact ⟨[], .done entered⟩
  | name :: pending =>
    by_cases seen : name ∈ entered
    · obtain ⟨met, walk⟩ := exists_walk left entered pending leaf
      exact ⟨met, .again seen walk⟩
    by_cases known : name ∈ left
    · -- Crossing out the name leaves fewer, for the names behind it and for those after it.
      have fewer : (left.erase name).length < left.length := by
        have := List.length_pos_of_mem known
        rw [List.length_erase_of_mem known]
        omega
      have others : ∀ other, other ∉ name :: entered → other ∉ left.erase name →
          next other = [] := by
        intro other fresh crossed
        rw [List.mem_cons, not_or] at fresh
        exact leaf other fresh.2 fun member => crossed ((List.mem_erase_of_ne fresh.1).2 member)
      obtain ⟨inner, first⟩ := exists_walk (left.erase name) (name :: entered) (next name) others
      obtain ⟨later, rest⟩ := exists_walk (left.erase name) (inner ++ name :: entered) pending
        fun other fresh => others other fun old => fresh (List.mem_append_right _ old)
      exact ⟨_, .enter seen first rest⟩
    · obtain ⟨later, rest⟩ := exists_walk left (name :: entered) pending
        fun other fresh => leaf other fun old => fresh (List.mem_cons_of_mem _ old)
      have first : DepthFirst next (name :: entered) (next name) [] := by
        rw [leaf name seen known]
        exact .done _
      exact ⟨_, .enter seen first rest⟩
termination_by (left.length, pending.length)
decreasing_by
  · exact Prod.Lex.right _ (Nat.lt_succ_self _)
  · exact Prod.Lex.left _ _ fewer
  · exact Prod.Lex.left _ _ fewer
  · exact Prod.Lex.right _ (Nat.lt_succ_self _)

end DepthFirst

namespace Namespace

variable {types : Namespace} {entered pending met : List String}

def referred (types : Namespace) (name : String) : List String :=
  match types.find? name with
  | some definition => definition.resolvedReferences
  | none => []

theorem referred_of_find? {name : String} {definition : Definition}
    (found : types.find? name = some definition) :
    types.referred name = definition.resolvedReferences := by
  simp only [referred, found]

theorem referred_of_unbound {name : String} (unbound : types.contains name = false) :
    types.referred name = [] := by
  simp only [contains, Option.isSome_eq_false_iff, Option.isNone_iff_eq_none] at unbound
  simp only [referred, unbound]

theorem exists_definition_of_referred {name reference : String}
    (member : reference ∈ types.referred name) :
    ∃ definition ∈ types.definitions, reference ∈ definition.resolvedReferences := by
  unfold referred at member
  split at member
  · rename_i definition found
    exact ⟨definition, (find?_eq_some_iff.1 found).1, member⟩
  · cases member

def unentered (types : Namespace) (entered : List String) : List Definition :=
  types.definitions.filter (·.name ∉ entered)

theorem unentered_nil (types : Namespace) : types.unentered [] = types.definitions := by
  simp [unentered]

theorem unentered_congr {other : List String} (same : ∀ name, name ∈ entered ↔ name ∈ other) :
    types.unentered entered = types.unentered other := by
  simp only [unentered, same]

theorem mem_unentered {definition : Definition} :
    definition ∈ types.unentered entered ↔
      definition ∈ types.definitions ∧ definition.name ∉ entered := by
  simp [unentered]

theorem lookup_unentered {name : String} {definition : Definition} (fresh : name ∉ entered)
    (found : types.find? name = some definition) :
    (types.unentered entered).find? (·.name == name) = some definition := by
  obtain ⟨member, rfl⟩ := find?_eq_some_iff.1 found
  have distinct : ((types.unentered entered).map (·.name)).Nodup :=
    types.distinct.sublist (List.filter_sublist.map _)
  exact (find?_key_eq_some_iff distinct).2 ⟨mem_unentered.2 ⟨member, fresh⟩, rfl⟩

theorem lookup_unentered_eq_none {name : String}
    (gone : name ∈ entered ∨ types.contains name = false) :
    (types.unentered entered).find? (·.name == name) = none := by
  rw [List.find?_eq_none]
  intro definition left same
  obtain ⟨member, fresh⟩ := mem_unentered.1 left
  obtain rfl := eq_of_beq same
  rcases gone with old | unbound
  · exact fresh old
  · rw [contains_name member] at unbound
    cases unbound

theorem erase_unentered {name : String} {definition : Definition}
    (found : types.find? name = some definition) :
    (types.unentered entered).erase definition = types.unentered (name :: entered) := by
  obtain ⟨member, rfl⟩ := find?_eq_some_iff.1 found
  have once := types.nodup_definitions.sublist
    (List.filter_sublist (p := (·.name ∉ entered)))
  rw [unentered, once.erase_eq_filter, List.filter_filter, unentered]
  apply List.filter_congr
  intro other otherMember
  by_cases same : other = definition
  · simp [same]
  · have differs : other.name ≠ definition.name :=
      fun sameName => same (List.inj_on_of_nodup_map types.distinct otherMember member sameName)
    simp [same, differs]

/-! ## Validation -/

theorem follow_depthFirst (walk : DepthFirst types.referred entered pending met)
    (bound : ∀ name ∈ entered, types.contains name = true) (rest : List String) :
    types.follow (types.unentered entered) (pending ++ rest) =
      match met.find? (!types.contains ·) with
      | some name => .error (.undefinedType name)
      | none => types.follow (types.unentered (met ++ entered)) rest := by
  induction walk generalizing rest with
  | done entered => rfl
  | @again entered pending met name seen _ ih =>
    rw [List.cons_append, follow_of_missing (lookup_unentered_eq_none (.inl seen)),
      if_pos (bound name seen), ih bound]
  | @enter entered pending inner later name fresh first _ innerIH laterIH =>
    cases found : types.find? name with
    | none =>
      have unbound : types.contains name = false := by simp [contains, found]
      rw [List.cons_append, follow_of_missing (lookup_unentered_eq_none (.inr unbound))]
      simp [unbound]
    | some definition =>
      have known := contains_iff.2 ⟨definition, found⟩
      have boundNow : ∀ other ∈ name :: entered, types.contains other = true :=
        List.forall_mem_cons.2 ⟨known, bound⟩
      rw [List.cons_append, follow_of_lookup (lookup_unentered fresh found),
        erase_unentered found, ← referred_of_find? found, innerIH boundNow]
      simp only [List.cons_append, List.find?_cons, known, Bool.not_true]
      rw [List.find?_append]
      cases failed : inner.find? (!types.contains ·) with
      | some first => rfl
      | none =>
        have boundInner : ∀ other ∈ inner, types.contains other = true := by
          intro other member
          simpa using List.find?_eq_none.1 failed other member
        have same : types.unentered (later ++ (inner ++ name :: entered)) =
            types.unentered (name :: (inner ++ later ++ entered)) := by
          apply unentered_congr
          intro other
          simp only [List.mem_append, List.mem_cons]
          tauto
        rw [Option.none_or, ← same]
        exact laterIH (List.forall_mem_append.2 ⟨boundInner, boundNow⟩) rest

theorem exists_preorder (types : Namespace) :
    ∃ met, DepthFirst types.referred [] types.names met := by
  apply DepthFirst.exists_walk types.names
  intro name _ unbound
  apply referred_of_unbound
  rw [Bool.eq_false_iff, Ne, ← mem_names]
  exact unbound

theorem validate_of_preorder (walk : DepthFirst types.referred [] types.names met) :
    types.validate =
      match met.find? (!types.contains ·) with
      | some name => .error (.undefinedType name)
      | none => .ok () := by
  have followed := follow_depthFirst walk nofun []
  rw [unentered_nil, List.append_nil] at followed
  rw [validate, followed]
  split
  · rfl
  · rw [follow]

theorem validate_eq_error_iff (walk : DepthFirst types.referred [] types.names met)
    {error : NamespaceError} :
    types.validate = .error error ↔
      ∃ name before after, error = .undefinedType name ∧ met = before ++ name :: after ∧
        (∀ earlier ∈ before, types.contains earlier = true) ∧ types.contains name = false := by
  rw [validate_of_preorder walk]
  constructor
  · intro failed
    split at failed
    · rename_i name found
      cases failed
      obtain ⟨unbound, before, after, same, bound⟩ := List.find?_eq_some_iff_append.1 found
      exact ⟨name, before, after, rfl, same, by simpa using bound, by simpa using unbound⟩
    · cases failed
  · intro ⟨name, before, after, reported, same, bound, unbound⟩
    have found : met.find? (!types.contains ·) = some name := by
      apply List.find?_eq_some_iff_append.2
      exact ⟨by simp [unbound], before, after, same, by simpa using bound⟩
    rw [found, reported]

theorem referred_of_validate {name : String}
    (failed : types.validate = .error (.undefinedType name)) :
    types.contains name = false ∧
      ∃ definition ∈ types.definitions, name ∈ definition.resolvedReferences := by
  obtain ⟨met, walk⟩ := types.exists_preorder
  obtain ⟨_, before, after, same, listed, -, unbound⟩ := (validate_eq_error_iff walk).1 failed
  cases same
  refine ⟨unbound, ?_⟩
  have member : name ∈ met := by simp [listed]
  rcases walk.pending_or_behind member with root | ⟨referrer, _, behind⟩
  · -- The walk starts from bound names.
    rw [mem_names, unbound] at root
    cases root
  · exact exists_definition_of_referred behind

end Namespace

end SchemaWire
