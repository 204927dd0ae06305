import SchemaWire.Proofs.Encodable

/-! Values whose enum cases are those that reading would put there.

The cases around a payload are not on the wire. Of the chains that lead to one concrete type, the
canonical value has the case path at every place, and its other parts are those of the value.
-/

set_option autoImplicit false

namespace SchemaWire

namespace Namespace

mutual

/-- The canonical form of a value that was reached at `type` by taking off the cases around it, at a
place where `expected` is the type. -/
def canonicalFrom (types : Namespace) (expected type : String) (value : Value) : Value :=
  match value with
  | .enum case payload => canonicalFrom types expected case payload
  | .record fields =>
    (Value.record (canonicalParts types (types.partTypes type fields.length) fields)).wrap
      ((types.casePath? expected type).getD [])
  | .list items =>
    (Value.list (canonicalParts types (types.partTypes type items.length) items)).wrap
      ((types.casePath? expected type).getD [])
  | leaf => leaf.wrap ((types.casePath? expected type).getD [])
termination_by structural value

def canonicalParts (types : Namespace) (expected : List String) (values : List Value) :
    List Value :=
  match values, expected with
  | value :: values, type :: expected =>
    canonicalFrom types type type value :: canonicalParts types expected values
  | values, _ => values
termination_by structural values

end

/-- The value with the case path at every place where an enum is expected. -/
def canonical (types : Namespace) (type : String) (value : Value) : Value :=
  types.canonicalFrom type type value

mutual

def SettledFrom (types : Namespace) (expected : String) (chain : List String) (type : String)
    (value : Value) : Prop :=
  match value with
  | .enum case payload => SettledFrom types expected (chain ++ [case]) case payload
  | .record fields =>
    types.casePath? expected type = some chain ∧
      SettledParts types (types.partTypes type fields.length) fields
  | .list items =>
    types.casePath? expected type = some chain ∧
      SettledParts types (types.partTypes type items.length) items
  | _ => types.casePath? expected type = some chain
termination_by structural value

def SettledParts (types : Namespace) (expected : List String) (values : List Value) : Prop :=
  match values, expected with
  | value :: values, type :: expected =>
    SettledFrom types type [] type value ∧ SettledParts types expected values
  | _, _ => True
termination_by structural values

end

/-- Every chain of cases in a value of a type is the case path at its place. -/
def Settled (types : Namespace) (type : String) (value : Value) : Prop :=
  types.SettledFrom type [] type value

/-- No concrete type is reached from one type by two chains of cases. -/
def Unambiguous (types : Namespace) : Prop :=
  ∀ (expected type : String) (definition : Definition) (path other : List String),
    types.find? type = some definition → definition.kind ≠ .enum →
    CaseChain types.definitions expected path type →
    CaseChain types.definitions expected other type → path = other

/-! ## Cases around a payload -/

variable {types : Namespace} {expected type start : String} {path : List String} {payload : Value}

theorem canonicalFrom_wrap (chain : CaseChain types.definitions start path type) :
    types.canonicalFrom expected start (payload.wrap path) =
      types.canonicalFrom expected type payload := by
  induction chain with
  | here _ => rfl
  | step _ _ _ _ ih => exact ih

theorem settledFrom_wrap {front : List String}
    (chain : CaseChain types.definitions start path type) :
    types.SettledFrom expected front start (payload.wrap path) ↔
      types.SettledFrom expected (front ++ path) type payload := by
  induction chain generalizing front with
  | here _ => rw [List.append_nil]; rfl
  | @step _ case _ _ _ _ _ _ ih =>
    rw [List.append_cons]
    exact ih

end Namespace

theorem Value.wrap_inj {payload other : Value} {path later : List String}
    (concrete : payload.kind ≠ .enum) (otherConcrete : other.kind ≠ .enum) :
    payload.wrap path = other.wrap later ↔ path = later ∧ payload = other := by
  -- Where one path ends before the other, a payload would have to be an enum.
  induction path generalizing later with
  | nil =>
    cases later with
    | nil => simp [wrap]
    | cons case later =>
      constructor
      · intro same
        exact absurd (congrArg Value.kind same) concrete
      · rintro ⟨none, _⟩
        cases none
  | cons case path ih =>
    cases later with
    | nil =>
      constructor
      · intro same
        exact absurd (congrArg Value.kind same).symm otherConcrete
      · rintro ⟨none, _⟩
        cases none
    | cons other later =>
      have inner := @ih later
      simp only [wrap, List.foldr_cons, Value.enum.injEq, List.cons.injEq] at inner ⊢
      rw [inner, and_assoc]

theorem PayloadOf.concrete {types : Namespace} {motive : String → Value → Prop} {type : String}
    {payload : Value} (shape : PayloadOf types motive type payload) : payload.kind ≠ .enum := by
  cases shape <;> simp [Value.kind]

namespace Namespace

variable {types : Namespace} {expected type : String} {payload : Value}

def canonicalPayload (types : Namespace) (type : String) (payload : Value) : Value :=
  match payload with
  | .record fields => .record (types.canonicalParts (types.partTypes type fields.length) fields)
  | .list items => .list (types.canonicalParts (types.partTypes type items.length) items)
  | other => other

theorem canonicalFrom_payload (concrete : payload.kind ≠ .enum) :
    types.canonicalFrom expected type payload =
      (types.canonicalPayload type payload).wrap ((types.casePath? expected type).getD []) := by
  cases payload with
  | enum case payload => exact absurd rfl concrete
  | _ => rfl

theorem canonical_wrap {path found : List String}
    (chain : CaseChain types.definitions expected path type) (concrete : payload.kind ≠ .enum)
    (reached : types.casePath? expected type = some found) :
    types.canonical expected (payload.wrap path) =
      (types.canonicalPayload type payload).wrap found := by
  rw [canonical, canonicalFrom_wrap chain, canonicalFrom_payload concrete, reached,
    Option.getD_some]

theorem kind_canonicalPayload : (types.canonicalPayload type payload).kind = payload.kind := by
  cases payload <;> rfl

/-! ## Canonical values are the settled ones -/

theorem canonicalParts_eq_iff {fields : List String} {values : List Value}
    (parts : List.Forall₂ (fun type value => types.canonical type value = value ↔
      types.Settled type value) fields values) :
    types.canonicalParts fields values = values ↔ types.SettledParts fields values := by
  induction parts with
  | nil => simp [canonicalParts, SettledParts]
  | cons first _ ih =>
    rw [canonicalParts, SettledParts, List.cons.injEq, ih]
    exact and_congr_left fun _ => first

theorem canonicalPayload_eq_iff {path : List String}
    (parts : PayloadOf types (fun type value => types.canonical type value = value ↔
      types.Settled type value) type payload) :
    (types.casePath? expected type = some path ∧ types.canonicalPayload type payload = payload) ↔
      types.SettledFrom expected path type payload := by
  -- Only records and lists have parts to be settled.
  cases parts with
  | singleton => simp [canonicalPayload, SettledFrom]
  | builtin primitive => simp [canonicalPayload, SettledFrom]
  | record parts =>
    rw [canonicalPayload, SettledFrom, Value.record.injEq, canonicalParts_eq_iff parts]
  | list parts =>
    rw [canonicalPayload, SettledFrom, Value.list.injEq, canonicalParts_eq_iff parts]

end Namespace

theorem Codec.canonical_eq_iff {codec : Codec} {room : Nat} {type : String} {value : Value}
    {bytes : Bytes} (written : encodeAt codec room type value = .write bytes) :
    codec.types.canonical type value = value ↔ codec.types.Settled type value := by
  refine encodable_induction (motive := fun type value =>
    codec.types.canonical type value = value ↔ codec.types.Settled type value) ?_ written
  intro expected path type definition payload chain _ _ parts
  -- Both sides come down to the chain around the payload and the parts of the payload.
  obtain ⟨found, reached⟩ := Namespace.exists_casePath?_of_caseChain chain
  have concrete := parts.concrete
  have concreteForm : (codec.types.canonicalPayload type payload).kind ≠ .enum := by
    rwa [Namespace.kind_canonicalPayload]
  rw [Namespace.canonical_wrap chain concrete reached, Value.wrap_inj concreteForm concrete,
    Namespace.Settled, Namespace.settledFrom_wrap chain, List.nil_append,
    ← Namespace.canonicalPayload_eq_iff parts, reached, Option.some.injEq]

theorem Namespace.settledFrom_of_parts {types : Namespace} {expected type : String}
    {path : List String} {payload : Value} (reached : types.casePath? expected type = some path)
    (parts : PayloadOf types types.Settled type payload) :
    types.SettledFrom expected path type payload := by
  have together : ∀ {fields values}, List.Forall₂ types.Settled fields values →
      types.SettledParts fields values := by
    intro fields values settled
    induction settled with
    | nil => simp [SettledParts]
    | cons first _ ih => exact ⟨first, ih⟩
  cases parts with
  | singleton => exact reached
  | builtin primitive => exact reached
  | record settled => exact ⟨reached, together settled⟩
  | list settled => exact ⟨reached, together settled⟩

/-- Without ambiguity there is only one chain that a value can have. -/
theorem Codec.settled_of_unambiguous {codec : Codec} (unambiguous : codec.types.Unambiguous)
    {room : Nat} {type : String} {value : Value} {bytes : Bytes}
    (written : encodeAt codec room type value = .write bytes) :
    codec.types.Settled type value := by
  refine encodable_induction (motive := codec.types.Settled) ?_ written
  intro expected path type definition payload chain found concrete parts
  obtain ⟨other, reached⟩ := Namespace.exists_casePath?_of_caseChain chain
  -- The chain that was written is the one that would be found.
  have same := unambiguous expected type definition path other found concrete chain
    (Namespace.caseChain_of_casePath? reached)
  subst same
  rw [Namespace.Settled, Namespace.settledFrom_wrap chain, List.nil_append]
  exact Namespace.settledFrom_of_parts reached parts

end SchemaWire
