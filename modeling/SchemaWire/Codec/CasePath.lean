import SchemaWire.Schema.Namespace

/-! Finding the enum cases that lead from an expected type to an encoded one.

The search goes depth first through nested enums and enters each enum once, so it ends on cyclic
families too. A type that is a direct case of an enum is found before any of that enum's cases is
searched.
-/

set_option autoImplicit false

namespace SchemaWire.Namespace

/-- Search the enums of `pending` in turn, each with the path that leads to it. `unseen` holds the
definitions not yet entered. -/
def searchCase (target : String) (unseen : List Definition)
    (pending : List (List String × String)) : Option (List String) :=
  match pending with
  | [] => none
  | (path, name) :: pending =>
    match _ : unseen.find? (·.name == name) with
    | none => searchCase target unseen pending
    | some definition =>
      match definition.shape with
      | .enum _ =>
        let cases := definition.resolvedReferences
        if cases.contains target then some (path ++ [target])
        else
          searchCase target (unseen.erase definition)
            (cases.map (fun name => (path ++ [name], name)) ++ pending)
      | _ => searchCase target unseen pending
termination_by (unseen.length, pending.length)
decreasing_by
  · apply Prod.Lex.right
    simp
  · exact Prod.Lex.left _ _ (length_erase_lt ‹_›)
  · apply Prod.Lex.right
    simp

/-- The cases that lead from `expected` down to `target`, the outermost first. The path is empty
when the two are the same type. -/
def casePath? (types : Namespace) (expected target : String) : Option (List String) :=
  if expected = target then some []
  else searchCase target types.definitions [([], expected)]

end SchemaWire.Namespace
