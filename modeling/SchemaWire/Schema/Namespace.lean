import SchemaWire.Schema.Definition

/-! Namespaces: definitions under distinct names, in no particular order.

Whatever depends on an order sorts the names first. They are compared by code point, which is also
the order of their UTF-8 bytes.
-/

set_option autoImplicit false

namespace SchemaWire

inductive NamespaceError where
  | reservedName (name : String)
  | duplicateBinding (new old : Definition)
  | undefinedType (name : String)
  deriving DecidableEq, Repr

def NamespaceError.message : NamespaceError → String
  | reservedName name => s!"reserved name cannot be bound: {name}"
  | duplicateBinding new old =>
    s!"duplicate binding for {new.name}: `{new.text}` conflicts with `{old.text}`"
  | undefinedType name => s!"undefined type: {name}"

@[ext]
structure Namespace where
  definitions : List Definition
  distinct : (definitions.map (·.name)).Nodup

namespace Namespace

def empty : Namespace := ⟨[], .nil⟩

/-- The same names have the same definitions, however these are arranged. -/
def Same (types other : Namespace) : Prop := types.definitions.Perm other.definitions

instance (types other : Namespace) : Decidable (types.Same other) :=
  inferInstanceAs (Decidable (types.definitions.Perm other.definitions))

def size (types : Namespace) : Nat := types.definitions.length

def find? (types : Namespace) (name : String) : Option Definition :=
  types.definitions.find? (·.name == name)

def contains (types : Namespace) (name : String) : Bool := (types.find? name).isSome

def names (types : Namespace) : List String :=
  (types.definitions.map (·.name)).mergeSort (· ≤ ·)

theorem names_perm (types : Namespace) : types.names.Perm (types.definitions.map (·.name)) :=
  List.mergeSort_perm _ _

theorem ascending_names (types : Namespace) : types.names.Pairwise (· < ·) := by
  have sorted : types.names.Pairwise fun first second => decide (first ≤ second) = true := by
    apply List.pairwise_mergeSort
    · intro first second third
      simpa using String.le_trans
    · intro first second
      simpa using String.le_total first second
  have once : types.names.Nodup := types.names_perm.nodup_iff.2 types.distinct
  refine (sorted.and once).imp ?_
  intro first second ⟨below, differ⟩
  exact Std.lt_of_le_of_ne (of_decide_eq_true below) differ

def ordered (types : Namespace) : List Definition := types.names.filterMap types.find?

def render (types : Namespace) : String :=
  String.join (types.ordered.map (·.text ++ "\n"))

theorem name_notMem_of_find?_eq_none {types : Namespace} {name : String}
    (unbound : types.find? name = none) : name ∉ types.definitions.map (·.name) := by
  intro bound
  obtain ⟨definition, member, same⟩ := List.mem_map.1 bound
  simpa [same] using List.find?_eq_none.1 unbound definition member

def bind (types : Namespace) (new : Definition) : Except NamespaceError Namespace :=
  if new.name = TypeRef.selfWord then .error (.reservedName TypeRef.selfWord)
  else
    match unbound : types.find? new.name with
    | some old => .error (.duplicateBinding new old)
    | none =>
      .ok ⟨new :: types.definitions,
        List.nodup_cons.2 ⟨name_notMem_of_find?_eq_none unbound, types.distinct⟩⟩

/-- Bind definitions in turn, failing at the first whose name is taken or reserved. -/
def build (definitions : List Definition) : Except NamespaceError Namespace :=
  definitions.foldlM bind empty

theorem length_erase_lt {unseen : List Definition} {wanted : Definition → Bool}
    {definition : Definition} (found : unseen.find? wanted = some definition) :
    (unseen.erase definition).length < unseen.length := by
  have member := List.mem_of_find?_eq_some found
  have := List.length_pos_of_mem member
  rw [List.length_erase_of_mem member]
  omega

/-- Follow references depth first, entering each definition once. `unseen` holds the definitions not
yet entered and `pending` the names still to follow, the next one in front. -/
def follow (types : Namespace) (unseen : List Definition) (pending : List String) :
    Except NamespaceError Unit :=
  match pending with
  | [] => .ok ()
  | name :: pending =>
    match _ : unseen.find? (·.name == name) with
    | some definition =>
      follow types (unseen.erase definition) (definition.resolvedReferences ++ pending)
    | none =>
      if types.contains name then follow types unseen pending else .error (.undefinedType name)
termination_by (unseen.length, pending.length)
decreasing_by
  · exact Prod.Lex.left _ _ (length_erase_lt ‹_›)
  · apply Prod.Lex.right
    simp

/-- Check that every reference is bound, walking from the bound names in ascending order. -/
def validate (types : Namespace) : Except NamespaceError Unit :=
  types.follow types.definitions types.names

end Namespace

end SchemaWire
