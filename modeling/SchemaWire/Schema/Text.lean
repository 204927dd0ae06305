import SchemaWire.Schema.Definition
import SchemaWire.Text.Quoted
import SchemaWire.Text.Words

/-! Schema text: one definition a line, blank lines ignored.

A line is `Name: Kind argument ...`, words separated by white space. Lines are numbered from one,
the blank ones included, and the first line that is no definition fails the whole text.
-/

set_option autoImplicit false

namespace SchemaWire

inductive LineError where
  | badName
  | missingKind
  | unknownKind (word : String)
  | badArgumentCount (kind : Kind) (found : Nat)
  | unknownRepresentation (word : String)
  deriving DecidableEq, Repr

def LineError.message : LineError → String
  | badName => "type name must be followed by ':'"
  | missingKind => "missing kind after type name"
  | unknownKind word => "unknown kind " ++ Text.quotedString word
  | badArgumentCount kind found => s!"{kind.keyword} takes {kind.arity.text}, found {found}"
  | unknownRepresentation word => "unknown builtin representation " ++ Text.quotedString word

structure ParseError where
  line : Nat
  cause : LineError
  deriving DecidableEq, Repr

def ParseError.message (error : ParseError) : String := s!"line {error.line}: {error.cause.message}"

namespace SchemaText

/-- The name in front of the colon that ends the first word. A name has no colon of its own. -/
def nameOfWord? (word : List Char) : Option String :=
  match word.getLast? with
  | some ':' =>
    let name := word.dropLast
    if name.isEmpty || name.contains ':' then none else some (String.ofList name)
  | _ => none

def shapeOf (kind : Kind) (arguments : List String) : Except LineError Shape :=
  match kind, arguments with
  | .singleton, [] => .ok .singleton
  | .record, first :: rest => .ok (.record ((first :: rest).map TypeRef.ofWord))
  | .enum, first :: rest => .ok (.enum ((first :: rest).map TypeRef.ofWord))
  | .list, [element] => .ok (.list (TypeRef.ofWord element))
  | .builtin, [word] =>
    match Representation.ofKeyword? word with
    | some representation => .ok (.builtin representation)
    | none => .error (.unknownRepresentation word)
  | kind, arguments => .error (.badArgumentCount kind arguments.length)

def definitionOfWords (words : List (List Char)) : Except LineError Definition :=
  match words with
  | [] => .error .badName
  | first :: rest =>
    match nameOfWord? first, rest.map String.ofList with
    | none, _ => .error .badName
    | some _, [] => .error .missingKind
    | some name, keyword :: arguments =>
      match Kind.ofKeyword? keyword with
      | none => .error (.unknownKind keyword)
      | some kind => do
        let shape ← shapeOf kind arguments
        return ⟨name, shape⟩

def parseLine (line : Nat) (text : List Char) : Except ParseError Definition :=
  (definitionOfWords (Text.words text)).mapError (⟨line, ·⟩)

def parseLines : Nat → List (List Char) → Except ParseError (List Definition)
  | _, [] => .ok []
  | line, text :: later => do
    if (Text.words text).isEmpty then parseLines (line + 1) later
    else
      let definition ← parseLine line text
      let definitions ← parseLines (line + 1) later
      return definition :: definitions

def parse (text : String) : Except ParseError (List Definition) :=
  parseLines 1 (Text.lines text.toList)

end SchemaText

end SchemaWire
