import SchemaWire.Proofs.Outcome
import SchemaWire.TypedJson.Reading
import SchemaWire.TypedJson.Writing

/-! JSON as a tree, and the one loop by which parts are read from it and written to it.

Both directions convert each part at the type that is expected at its place and stop at the first
part that fails. Items are fields that all have one type.
-/

set_option autoImplicit false

namespace SchemaWire

namespace Json

def parts : Json → List Json
  | .array items => items
  | .object members => members.map Prod.snd
  | _ => []

theorem sizeOf_lt_of_mem_parts {json part : Json} (member : part ∈ json.parts) :
    sizeOf part < sizeOf json := by
  cases json with
  | array items =>
    have smaller := List.sizeOf_lt_of_mem (show part ∈ items from member)
    rw [array.sizeOf_spec]
    omega
  | object members =>
    obtain ⟨⟨key, value⟩, listed, same⟩ := List.mem_map.1 member
    have smaller := List.sizeOf_lt_of_mem listed
    rw [Prod.mk.sizeOf_spec, show value = part from same] at smaller
    rw [object.sizeOf_spec]
    omega
  | _ => cases member

@[elab_as_elim]
theorem induction {motive : Json → Prop}
    (node : ∀ json, (∀ part ∈ json.parts, motive part) → motive json) (json : Json) :
    motive json :=
  node json fun part _ => induction node part
termination_by sizeOf json
decreasing_by exact sizeOf_lt_of_mem_parts ‹_›

end Json

/-! ## Converting parts -/

section

variable {ε α β : Type}

def convertParts (convert : String → α → Except ε β) :
    List String → List α → Except ε (List β)
  | type :: types, part :: parts => do
    let converted ← convert type part
    let later ← convertParts convert types parts
    return converted :: later
  | _, _ => .ok []

variable {convert : String → α → Except ε β} {types : List String} {parts : List α}
  {results : List β}

theorem convertParts_cons_eq_ok_iff {type : String} {part : α} :
    convertParts convert (type :: types) (part :: parts) = .ok results ↔
      ∃ first later, convert type part = .ok first ∧ convertParts convert types parts = .ok later ∧
        results = first :: later := by
  simp only [convertParts, Outcome.bind_eq_ok_iff, Outcome.pure_eq_ok_iff]
  constructor
  · rintro ⟨first, converted, later, others, rfl⟩
    exact ⟨first, later, converted, others, rfl⟩
  · rintro ⟨first, later, converted, others, rfl⟩
    exact ⟨first, converted, later, others, rfl⟩

theorem exists_convertParts_iff :
    (∃ results, convertParts convert types parts = .ok results) ↔
      ∀ typed ∈ types.zip parts, ∃ result, convert typed.1 typed.2 = .ok result := by
  induction parts generalizing types with
  | nil => cases types <;> simp [convertParts]
  | cons part parts ih =>
    cases types with
    | nil => simp [convertParts]
    | cons type types =>
      rw [List.zip_cons_cons, List.forall_mem_cons, ← ih]
      constructor
      · rintro ⟨_, converted⟩
        obtain ⟨first, later, head, tail, -⟩ := convertParts_cons_eq_ok_iff.1 converted
        exact ⟨⟨first, head⟩, later, tail⟩
      · rintro ⟨⟨first, head⟩, later, tail⟩
        exact ⟨_, convertParts_cons_eq_ok_iff.2 ⟨first, later, head, tail, rfl⟩⟩

theorem convertParts_congr {other : String → α → Except ε β}
    (each : ∀ typed ∈ types.zip parts, convert typed.1 typed.2 = other typed.1 typed.2) :
    convertParts convert types parts = convertParts other types parts := by
  induction parts generalizing types with
  | nil => cases types <;> rfl
  | cons part parts ih =>
    cases types with
    | nil => rfl
    | cons type types =>
      rw [List.zip_cons_cons, List.forall_mem_cons] at each
      rw [convertParts, convertParts, each.1, ih each.2]

theorem exists_of_mem_convertParts (converted : convertParts convert types parts = .ok results)
    {result : β} (member : result ∈ results) :
    ∃ type part, part ∈ parts ∧ convert type part = .ok result := by
  induction parts generalizing types results with
  | nil =>
    cases types <;>
      · cases converted
        cases member
  | cons part parts ih =>
    cases types with
    | nil =>
      cases converted
      cases member
    | cons type types =>
      obtain ⟨first, later, head, tail, rfl⟩ := convertParts_cons_eq_ok_iff.1 converted
      rcases List.mem_cons.1 member with rfl | member
      · exact ⟨type, part, List.mem_cons_self, head⟩
      · obtain ⟨type, part, inside, converted⟩ := ih tail member
        exact ⟨type, part, List.mem_cons_of_mem _ inside, converted⟩

theorem convertParts_failsOnlyWith {allowed : ε → Prop}
    (each : ∀ typed ∈ types.zip parts, Outcome.FailsOnlyWith allowed (convert typed.1 typed.2)) :
    Outcome.FailsOnlyWith allowed (convertParts convert types parts) := by
  induction parts generalizing types with
  | nil => cases types <;> exact Outcome.failsOnlyWith_ok _
  | cons part parts ih =>
    cases types with
    | nil => exact Outcome.failsOnlyWith_ok _
    | cons type types =>
      rw [List.zip_cons_cons, List.forall_mem_cons] at each
      refine each.1.bind fun first _ => (ih each.2).bind fun later _ => ?_
      exact Outcome.failsOnlyWith_ok _

theorem length_of_convertParts (counted : types.length = parts.length)
    (converted : convertParts convert types parts = .ok results) :
    parts.length = results.length := by
  induction parts generalizing types results with
  | nil =>
    obtain rfl := List.length_eq_zero_iff.1 counted
    cases converted
    rfl
  | cons part parts ih =>
    cases types with
    | nil => cases counted
    | cons type types =>
      obtain ⟨first, later, -, tail, rfl⟩ := convertParts_cons_eq_ok_iff.1 converted
      exact congrArg (· + 1) (ih (Nat.succ.inj counted) tail)

theorem convertParts_back {ε' : Type} {back : String → β → Except ε' α}
    {respell : String → α → α}
    (each : ∀ part ∈ parts, ∀ {type result}, convert type part = .ok result →
      back type result = .ok (respell type part))
    (counted : types.length = parts.length)
    (converted : convertParts convert types parts = .ok results) :
    convertParts back types results = .ok (List.zipWith respell types parts) := by
  induction parts generalizing types results with
  | nil =>
    obtain rfl := List.length_eq_zero_iff.1 counted
    cases converted
    rfl
  | cons part parts ih =>
    cases types with
    | nil => cases counted
    | cons type types =>
      obtain ⟨first, later, head, tail, rfl⟩ := convertParts_cons_eq_ok_iff.1 converted
      rw [List.forall_mem_cons] at each
      exact convertParts_cons_eq_ok_iff.2
        ⟨_, _, each.1 head, ih each.2 (Nat.succ.inj counted) tail, rfl⟩

theorem convertParts_undo {ε' : Type} {back : String → β → Except ε' α}
    (each : ∀ part ∈ parts, ∀ {type result}, convert type part = .ok result →
      back type result = .ok part)
    (counted : types.length = parts.length)
    (converted : convertParts convert types parts = .ok results) :
    convertParts back types results = .ok parts := by
  have unchanged : List.zipWith (fun _ part => part) types parts = parts := by
    rw [← List.map_uncurry_zip_eq_zipWith]
    exact List.map_snd_zip (Nat.le_of_eq counted.symm)
  rw [convertParts_back each counted converted, unchanged]

end

namespace Namespace

variable {types : Namespace} {fields : List String}

theorem fieldsOfJson_eq_convertParts {items : List Json} :
    fieldsOfJson types fields items = convertParts types.valueOfJson fields items := by
  induction items generalizing fields with
  | nil =>
    rw [fieldsOfJson.eq_def]
    cases fields <;> rfl
  | cons item items ih =>
    cases fields with
    | nil =>
      rw [fieldsOfJson.eq_def]
      rfl
    | cons field fields =>
      rw [fieldsOfJson, ih]
      rfl

theorem itemsOfJson_eq_convertParts {element : String} {items : List Json} :
    itemsOfJson types element items =
      convertParts types.valueOfJson (List.replicate items.length element) items := by
  induction items with
  | nil =>
    rw [itemsOfJson]
    rfl
  | cons item items ih =>
    rw [itemsOfJson, ih]
    rfl

theorem jsonOfFields_eq_convertParts {values : List Value} :
    jsonOfFields types fields values = convertParts types.jsonOfValue fields values := by
  induction values generalizing fields with
  | nil =>
    rw [jsonOfFields.eq_def]
    cases fields <;> rfl
  | cons value values ih =>
    cases fields with
    | nil =>
      rw [jsonOfFields.eq_def]
      rfl
    | cons field fields =>
      rw [jsonOfFields, ih]
      rfl

theorem jsonOfItems_eq_convertParts {element : String} {values : List Value} :
    jsonOfItems types element values =
      convertParts types.jsonOfValue (List.replicate values.length element) values := by
  induction values with
  | nil =>
    rw [jsonOfItems]
    rfl
  | cons value values ih =>
    rw [jsonOfItems, ih]
    rfl

end Namespace

end SchemaWire
