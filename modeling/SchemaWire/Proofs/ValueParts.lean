import SchemaWire.Value

/-! Values as trees: their parts and nodes, the numbers that they hold, and how deep they nest.

The cases around a payload are no level of their own and make it no part. Below its cases every value
is a node with parts, none of them unless it is a record or a list.
-/

set_option autoImplicit false

namespace SchemaWire.Value

def parts : Value → List Value
  | .record fields => fields
  | .list items => items
  | _ => []

theorem sizeOf_lt_of_mem_parts {value part : Value} (member : part ∈ value.parts) :
    sizeOf part < sizeOf value := by
  cases value with
  | record fields =>
    have smaller := List.sizeOf_lt_of_mem (show part ∈ fields from member)
    rw [record.sizeOf_spec]
    omega
  | list items =>
    have smaller := List.sizeOf_lt_of_mem (show part ∈ items from member)
    rw [list.sizeOf_spec]
    omega
  | _ => cases member

theorem kind_eq_enum_iff {value : Value} :
    value.kind = .enum ↔ ∃ case payload, value = .enum case payload := by
  cases value <;> simp [Value.kind]

@[elab_as_elim]
theorem induction {motive : Value → Prop}
    (step : ∀ value, (∀ case payload, value = .enum case payload → motive payload) →
      (∀ part ∈ value.parts, motive part) → motive value) (value : Value) : motive value :=
  step value (fun _ payload _ => induction step payload) fun part _ => induction step part
termination_by sizeOf value
decreasing_by
  · rename_i same
    rw [same, Value.enum.sizeOf_spec]
    omega
  · exact sizeOf_lt_of_mem_parts ‹_›

/-! ## Nodes -/

mutual

def nodes : Value → Nat
  | .enum _ payload => payload.nodes
  | .record fields => nodesOfParts fields + 1
  | .list items => nodesOfParts items + 1
  | _ => 1

def nodesOfParts : List Value → Nat
  | [] => 0
  | part :: parts => part.nodes + nodesOfParts parts

end

@[simp] theorem nodes_wrap (path : List String) (value : Value) :
    (value.wrap path).nodes = value.nodes := by
  induction path with
  | nil => rfl
  | cons case path ih => exact ih

theorem nodes_eq {value : Value} (concrete : value.kind ≠ .enum) :
    value.nodes = nodesOfParts value.parts + 1 := by
  cases value with
  | enum case payload => exact absurd rfl concrete
  | _ => rfl

theorem nodes_pos (value : Value) : 0 < value.nodes := by
  induction value using induction with
  | step value payloads _ =>
    cases value with
    | enum case payload => exact payloads case payload rfl
    | _ => exact Nat.succ_pos _

/-- A value stands at some place within another one, which may be the whole of it. -/
inductive Within (value : Value) : Value → Prop where
  | here : Within value value
  | case (case : String) {payload : Value} :
      Within value payload → Within value (.enum case payload)
  | part {whole part : Value} : part ∈ whole.parts → Within value part → Within value whole

theorem within_of_wrap {path : List String} {value whole : Value} (concrete : value.kind ≠ .enum)
    (within : Within value (whole.wrap path)) : Within value whole := by
  induction path with
  | nil => exact within
  | cons case path ih =>
    cases within with
    | here => exact absurd rfl concrete
    | case _ within => exact ih within
    | part member _ => cases member

/-! ## Numbers -/

mutual

def numbers : Value → List Nat
  | .enum _ payload => payload.numbers
  | .record fields => numbersOfParts fields
  | .list items => numbersOfParts items
  | .builtin (.varint n) => [n]
  | _ => []

def numbersOfParts : List Value → List Nat
  | [] => []
  | part :: parts => part.numbers ++ numbersOfParts parts

end

theorem mem_numbersOfParts {n : Nat} {values : List Value} :
    n ∈ numbersOfParts values ↔ ∃ part ∈ values, n ∈ part.numbers := by
  induction values with
  | nil => simp [numbersOfParts]
  | cons part parts ih => simp [numbersOfParts, ih]

theorem mem_numbers_of_part {value part : Value} (member : part ∈ value.parts) {n : Nat}
    (held : n ∈ part.numbers) : n ∈ value.numbers := by
  cases value with
  | record fields => exact mem_numbersOfParts.2 ⟨part, member, held⟩
  | list items => exact mem_numbersOfParts.2 ⟨part, member, held⟩
  | _ => cases member

theorem mem_numbers_node {value : Value} (concrete : value.kind ≠ .enum) {n : Nat}
    (held : n ∈ value.numbers) :
    value = .builtin (.varint n) ∨ ∃ part ∈ value.parts, n ∈ part.numbers := by
  cases value with
  | enum case payload => exact absurd rfl concrete
  | record fields => exact .inr (mem_numbersOfParts.1 held)
  | list items => exact .inr (mem_numbersOfParts.1 held)
  | singleton => cases held
  | builtin primitive =>
    cases primitive with
    | varint m =>
      obtain rfl := List.mem_singleton.1 held
      exact .inl rfl
    | _ => cases held

/-! ## Levels -/

mutual

/-- The largest number of records and lists around any node of a value. -/
def depth : Value → Nat
  | .enum _ payload => payload.depth
  | .record fields => depthOfParts fields
  | .list items => depthOfParts items
  | _ => 0

def depthOfParts : List Value → Nat
  | [] => 0
  | part :: parts => max (part.depth + 1) (depthOfParts parts)

end

@[simp] theorem depth_wrap (path : List String) (value : Value) :
    (value.wrap path).depth = value.depth := by
  induction path with
  | nil => rfl
  | cons case path ih => exact ih

theorem depthOfParts_le_iff {limit : Nat} {values : List Value} :
    depthOfParts values ≤ limit ↔ ∀ part ∈ values, part.depth < limit := by
  induction values with
  | nil => simp [depthOfParts]
  | cons part parts ih =>
    rw [depthOfParts, Nat.max_le, ih, List.forall_mem_cons]
    exact Iff.rfl

theorem depth_le_iff {value : Value} (concrete : value.kind ≠ .enum) {limit : Nat} :
    value.depth ≤ limit ↔ ∀ part ∈ value.parts, part.depth < limit := by
  cases value with
  | enum case payload => exact absurd rfl concrete
  | record fields => exact depthOfParts_le_iff
  | list items => exact depthOfParts_le_iff
  | singleton => simp [depth, parts]
  | builtin primitive => simp [depth, parts]

theorem depth_part_lt {value part : Value} (member : part ∈ value.parts) :
    part.depth < value.depth := by
  have concrete : value.kind ≠ .enum := by
    cases value with
    | enum case payload => cases member
    | _ => exact nofun
  exact (depth_le_iff concrete).1 (Nat.le_refl _) part member

end SchemaWire.Value
