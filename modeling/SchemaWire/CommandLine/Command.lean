import SchemaWire.CommandLine.Arguments

/-! The commands of the program.

The settings for output and logging may stand in front of a command or among its arguments, where
they take precedence.
-/

set_option autoImplicit false

namespace SchemaWire.CommandLine

inductive Format where
  | json
  | table
  | pretty
  | raw
  deriving DecidableEq, Repr

def Format.ofWord? : String → Option Format
  | "json" => some .json
  | "table" => some .table
  | "pretty" => some .pretty
  | "raw" => some .raw
  | _ => none

inductive ValueOrigin where
  | text (json : String)
  | file (path : String)
  | stdin
  deriving DecidableEq, Repr

inductive Command where
  | check (schema : String)
  | ids (schema : String)
  | fmt (schema : String) (check : Bool)
  | encode (schema type : String) (origin : ValueOrigin) (framed : Bool)
  /-- Without hexadecimal input, raw bytes are read from standard input. -/
  | decode (schema type : String) (hex : Option String) (framed : Bool)
  | version (extended : Bool)
  deriving DecidableEq, Repr

namespace Command

def files : Command → List String
  | check schema | ids schema | fmt schema _ | decode schema _ _ _ => [schema]
  | encode schema _ (.file path) _ => [schema, path]
  | encode schema _ _ _ => [schema]
  | version _ => []

def readsStdin : Command → Bool
  | encode _ _ .stdin _ | decode _ _ none _ => true
  | _ => false

end Command

structure Invocation where
  format : Option Format
  command : Command
  deriving DecidableEq, Repr

namespace Invocation

def everywhere : List Setting := [.format, .logFormat, .logLevel]

def commandNames : List String := ["check", "ids", "fmt", "encode", "decode", "version"]

def helpName : String := "help"

def outerGrammar : Grammar :=
  ⟨everywhere, [], [.help, .version], [], helpName :: commandNames⟩

def innerGrammar (name : String) : Grammar :=
  match name with
  | "fmt" => ⟨everywhere, [.check], [.help], [.path], []⟩
  | "encode" => ⟨.type :: .value :: .valueFile :: everywhere, [.framed], [.help], [.path], []⟩
  | "decode" => ⟨.type :: everywhere, [.framed], [.help], [.path, .hex], []⟩
  | "version" => ⟨everywhere, [.extended], [.help], [], []⟩
  | _ => ⟨everywhere, [], [.help], [.path], []⟩

def demand {α : Type} : Option α → Except Stop α
  | some a => .ok a
  | none => .error .refused

def valueOrigin (arguments : Arguments) : Except Stop ValueOrigin :=
  match arguments.setting? .value, arguments.setting? .valueFile with
  | some json, none => .ok (.text json)
  | none, some path => .ok (.file path)
  | none, none => .ok .stdin
  | some _, some _ => .error .refused

def commandOf (name : String) (arguments : Arguments) : Except Stop Command :=
  match name with
  | "version" => .ok (.version (arguments.raised .extended))
  | name => do
    let schema ← demand arguments.positionals[0]?
    match name with
    | "check" => return .check schema
    | "ids" => return .ids schema
    | "fmt" => return .fmt schema (arguments.raised .check)
    | "encode" =>
      let type ← demand (arguments.setting? .type)
      let origin ← valueOrigin arguments
      return .encode schema type origin (arguments.raised .framed)
    | "decode" =>
      let type ← demand (arguments.setting? .type)
      return .decode schema type arguments.positionals[1]? (arguments.raised .framed)
    | _ => throw .refused

/-- Where the log level is not set it comes from the surroundings, and must be one there too. -/
def checkLevel (surrounding : Option String) (arguments : Arguments) : Except Stop Unit :=
  match arguments.setting? .logLevel, surrounding with
  | none, some level => if Setting.logLevel.admits level then .ok () else .error .refused
  | _, _ => .ok ()

def helpAbout : List String → Stop
  | [] => .help
  | [name] => if (helpName :: commandNames).contains name then .help else .refused
  | _ => .refused

/-- Read the arguments of the program. `surrounding` is the log level of the surroundings. -/
def parse (surrounding : Option String) (arguments : List String) : Except Stop Invocation := do
  match ← Arguments.parse outerGrammar .empty arguments with
  | (_, []) => throw .refused
  | (outer, name :: rest) =>
    if name = helpName then throw (helpAbout rest)
    else
      let (inner, _) ← Arguments.parse (innerGrammar name) .empty rest
      checkLevel surrounding inner
      let command ← commandOf name inner
      checkLevel surrounding outer
      let format := inner.setting? .format <|> outer.setting? .format
      return ⟨format.bind Format.ofWord?, command⟩

end Invocation

end SchemaWire.CommandLine
