import SchemaWire.Bytes
import SchemaWire.Schema.Definition

/-! Values shaped like the types of a namespace.

A value carries no type names except that of the active case of an enum; who reads or writes it
supplies the type.
-/

set_option autoImplicit false

namespace SchemaWire

inductive Primitive where
  | varint (n : Nat)
  | text (text : String)
  | bytes (bytes : Bytes)
  | bool (value : Bool)
  deriving DecidableEq, Repr

def Primitive.representation : Primitive → Representation
  | varint _ => .varint
  | text _ => .text
  | bytes _ => .bytes
  | bool _ => .bool

inductive Value where
  | singleton
  | record (fields : List Value)
  | enum (case : String) (value : Value)
  | list (items : List Value)
  | builtin (primitive : Primitive)
  deriving Inhabited, Repr

namespace Value

def kind : Value → Kind
  | singleton => .singleton
  | record _ => .record
  | enum .. => .enum
  | list _ => .list
  | builtin _ => .builtin

/-- Wrap a value in enum cases, the first of the path outermost. -/
def wrap (path : List String) (value : Value) : Value := path.foldr .enum value

mutual

def beq : Value → Value → Bool
  | .singleton, .singleton => true
  | .record left, .record right => beqList left right
  | .enum leftCase left, .enum rightCase right => leftCase == rightCase && beq left right
  | .list left, .list right => beqList left right
  | .builtin left, .builtin right => left == right
  | _, _ => false

def beqList : List Value → List Value → Bool
  | [], [] => true
  | left :: lefts, right :: rights => beq left right && beqList lefts rights
  | _, _ => false

end

instance : BEq Value := ⟨beq⟩

mutual

theorem eq_of_beq : {left right : Value} → beq left right = true → left = right
  | .singleton, .singleton, _ => rfl
  | .record _, .record _, same => congrArg _ (eq_of_beqList same)
  | .enum _ _, .enum _ _, same => by
    simp only [beq, Bool.and_eq_true, beq_iff_eq] at same
    rw [same.1, eq_of_beq same.2]
  | .list _, .list _, same => congrArg _ (eq_of_beqList same)
  | .builtin _, .builtin _, same => congrArg _ (by simpa [beq] using same)

theorem eq_of_beqList : {left right : List Value} → beqList left right = true → left = right
  | [], [], _ => rfl
  | left :: lefts, right :: rights, same => by
    simp only [beqList, Bool.and_eq_true] at same
    rw [eq_of_beq same.1, eq_of_beqList same.2]

end

mutual

theorem beq_self : (value : Value) → beq value value = true
  | .singleton => rfl
  | .record fields => beqList_self fields
  | .enum case value => by simp [beq, beq_self value]
  | .list items => beqList_self items
  | .builtin primitive => by simp [beq]

theorem beqList_self : (values : List Value) → beqList values values = true
  | [] => rfl
  | value :: values => by simp [beqList, beq_self value, beqList_self values]

end

instance : LawfulBEq Value where
  eq_of_beq := eq_of_beq
  rfl := beq_self _

instance : DecidableEq Value := fun left right =>
  if same : left == right then .isTrue (LawfulBEq.eq_of_beq same)
  else .isFalse fun equal => same (by simp [equal])

end Value

end SchemaWire
