import SchemaWire.Proofs.DecimalText
import SchemaWire.Proofs.HexText
import SchemaWire.Proofs.JsonForm
import SchemaWire.Proofs.Validation

/-! JSON stands for values without loss.

Writing a value and reading the JSON gives the value back. The other way round the JSON comes back in
the spelling that is written: a number, or bytes, may be read from several spellings. All other JSON
comes back as it was.
-/

set_option autoImplicit false

namespace SchemaWire

/-! ## Leaves -/

def Representation.respelled (representation : Representation) (json : Json) : Json :=
  match representation, json with
  | .varint, .string digits =>
    match Decimal.Natural.read digits.toList with
    | .ok n =>
      if n < UInt64.size then .number (.natural (UInt64.ofNat n)) else .string (Numeral.decimal n)
    | .error _ => .string digits
  | .bytes, .string digits => .string (Hex.plain digits)
  | _, json => json

namespace Primitive

variable {representation : Representation} {json : Json} {primitive : Primitive}

theorem ofJson_toJson (primitive : Primitive) :
    ofJson primitive.representation primitive.toJson = .ok primitive := by
  cases primitive with
  | varint n =>
    by_cases short : n < UInt64.size
    · simp only [representation, toJson, if_pos short, ofJson, UInt64.toNat_ofNat_of_lt' short]
    · simp only [representation, toJson, if_neg short, ofJson, Decimal.Natural.read_decimal]
  | text content => rfl
  | bytes content => simp only [representation, toJson, ofJson, Hex.decode_of_encode]
  | bool value => rfl

theorem toJson_of_ofJson (read : ofJson representation json = .ok primitive) :
    primitive.toJson = representation.respelled json := by
  simp only [ofJson] at read
  split at read
  · rename_i n
    cases read
    simp only [toJson, if_pos n.toNat_lt_size, UInt64.ofNat_toNat, Representation.respelled]
  · cases read
  · rename_i digits
    split at read
    · rename_i n number
      cases read
      simp only [toJson, Representation.respelled, number]
    · cases read
  · cases read
    rfl
  · rename_i digits
    split at read
    · rename_i content decoded
      cases read
      simp only [toJson, Representation.respelled, Hex.decode_eq_ok_iff.1 decoded]
    · cases read
  · cases read
    rfl
  · cases read

end Primitive

namespace Namespace

variable {types : Namespace} {type : String}

/-! ## Values -/

mutual

/-- JSON of a type in the spelling that is written. Numbers and bytes are the only leaves that have
several spellings. -/
def respelled (types : Namespace) (type : String) (json : Json) : Json :=
  match types.find? type with
  | none => json
  | some definition =>
    match definition.shape, json with
    | .builtin representation, json => representation.respelled json
    | .record _, .array items =>
      .array (respelledParts types (definition.partTypes items.length) items)
    | .list _, .array items =>
      .array (respelledParts types (definition.partTypes items.length) items)
    | .enum _, .object [(case, inner)] => .object [(case, respelled types case inner)]
    | _, json => json
termination_by structural json

def respelledParts (types : Namespace) (fields : List String) (items : List Json) : List Json :=
  match items, fields with
  | item :: items, field :: fields =>
    respelled types field item :: respelledParts types fields items
  | items, _ => items
termination_by structural items

end

theorem respelledParts_eq_zipWith {fields : List String} {items : List Json}
    (counted : fields.length = items.length) :
    types.respelledParts fields items = List.zipWith types.respelled fields items := by
  induction items generalizing fields with
  | nil =>
    rw [respelledParts.eq_def]
    cases fields <;> rfl
  | cons item items ih =>
    cases fields with
    | nil => cases counted
    | cons field fields =>
      rw [respelledParts, ih (Nat.succ.inj counted)]
      rfl

variable {definition : Definition}

theorem respelled_null : types.respelled type .null = .null := by
  rw [respelled.eq_def]
  split
  · rfl
  · rename_i definition found
    cases shape : definition.shape with
    | builtin representation => cases representation <;> rfl
    | _ => rfl

theorem respelled_builtin {representation : Representation} {json : Json}
    (found : types.find? type = some definition) (shape : definition.shape = .builtin representation) :
    types.respelled type json = representation.respelled json := by
  rw [respelled.eq_def, found]
  simp only [shape]

theorem respelled_case {case : String} {inner : Json} (found : types.find? type = some definition)
    (enum : definition.kind = .enum) :
    types.respelled type (.object [(case, inner)]) = .object [(case, types.respelled case inner)] := by
  rw [respelled.eq_def, found]
  cases shape : definition.shape with
  | enum references => simp only [shape]
  | _ => simp [Definition.kind, shape, Shape.kind] at enum

theorem respelled_array {items : List Json} (found : types.find? type = some definition)
    (node : definition.kind = .record ∨ definition.kind = .list)
    (counted : (definition.partTypes items.length).length = items.length) :
    types.respelled type (.array items) =
      .array (List.zipWith types.respelled (definition.partTypes items.length) items) := by
  rw [respelled.eq_def, found, ← respelledParts_eq_zipWith counted]
  cases shape : definition.shape with
  | record fields => simp only [shape]
  | list element => simp only [shape]
  | _ => simp [Definition.kind, shape, Shape.kind] at node

theorem valueOfJson_of_jsonOfValue (value : Value) {type : String} {json : Json}
    (written : types.jsonOfValue type value = .ok json) :
    types.valueOfJson type json = .ok value := by
  induction value using Value.induction generalizing type json with
  | step value payloads parts =>
    obtain ⟨definition, found, admits, writes⟩ := jsonOfValue_eq_ok_iff.1 written
    refine valueOfJson_eq_ok_iff.2 ⟨definition, found, admits, ?_⟩
    cases value with
    | singleton => exact writes
    | builtin primitive =>
      obtain rfl := writes
      exact primitive.ofJson_toJson
    | enum case payload =>
      obtain ⟨inner, converted, rfl⟩ := writes
      exact ⟨inner, payloads case payload rfl converted, rfl⟩
    | record values | list values =>
      obtain ⟨items, converted, rfl⟩ := writes
      have counted := Definition.length_partTypes admits
      exact ⟨items, convertParts_undo parts counted converted,
        (length_of_convertParts counted converted).symm, rfl⟩

theorem jsonOfValue_of_valueOfJson (json : Json) {type : String} {value : Value}
    (read : types.valueOfJson type json = .ok value) :
    types.jsonOfValue type value = .ok (types.respelled type json) := by
  induction json using Json.induction generalizing type value with
  | node json parts =>
    obtain ⟨definition, found, admits, reads⟩ := valueOfJson_eq_ok_iff.1 read
    refine jsonOfValue_eq_ok_iff.2 ⟨definition, found, admits, ?_⟩
    cases value with
    | singleton =>
      obtain rfl := reads
      exact respelled_null
    | builtin primitive =>
      rw [respelled_builtin found admits.builtin]
      exact (Primitive.toJson_of_ofJson reads).symm
    | enum case payload =>
      obtain ⟨inner, converted, rfl⟩ := reads
      exact ⟨_, parts inner (List.mem_singleton_self inner) converted,
        respelled_case found admits.kind.symm⟩
    | record values | list values =>
      obtain ⟨items, converted, same, rfl⟩ := reads
      have typed := Definition.length_partTypes admits
      rw [← same] at converted typed
      have node : definition.kind = .record ∨ definition.kind = .list := by
        simp [← admits.kind, Value.kind]
      refine ⟨_, ?_, respelled_array found node typed⟩
      rw [← same]
      exact convertParts_back parts typed converted

/-- Values come back from their JSON as they were, and JSON from its values up to the spelling of
numbers and bytes. -/
theorem json_lossless (types : Namespace) (type : String) :
    (∀ value json, types.jsonOfValue type value = .ok json →
      types.valueOfJson type json = .ok value) ∧
    ∀ json value, types.valueOfJson type json = .ok value →
      types.jsonOfValue type value = .ok (types.respelled type json) ∧
        types.valueOfJson type (types.respelled type json) = .ok value := by
  refine ⟨fun value json written => valueOfJson_of_jsonOfValue value written, ?_⟩
  intro json value read
  have written := jsonOfValue_of_valueOfJson json read
  exact ⟨written, valueOfJson_of_jsonOfValue value written⟩

/-- A weight may be given with a sign, leading zeros and low lines, and contents in upper case and
with blanks. -/
theorem json_lossless_parcels :
    parcels.valueOfJson "Parcel"
        (.array [.string "Ink", .string "+0_7", .string "A b", .array []]) =
      .ok (.record [.builtin (.text "Ink"), .builtin (.varint 7), .builtin (.bytes [0xab]),
        .list []]) ∧
    parcels.jsonOfValue "Parcel" (.record [.builtin (.text "Ink"), .builtin (.varint 7),
        .builtin (.bytes [0xab]), .list []]) =
      .ok (.array [.string "Ink", .number (.natural 7), .string "ab", .array []]) := by
  have read : parcels.valueOfJson "Parcel"
      (.array [.string "Ink", .string "+0_7", .string "A b", .array []]) =
        .ok (.record [.builtin (.text "Ink"), .builtin (.varint 7), .builtin (.bytes [0xab]),
          .list []]) := rfl
  exact ⟨read, ((json_lossless parcels "Parcel").2 _ _ read).1⟩

end Namespace

end SchemaWire
