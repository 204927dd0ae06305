/-! Splitting command line arguments into settings, flags and positional arguments.

An argument that begins with a hyphen, and is more than a hyphen, names a setting or a flag. The
value of a setting is attached to its name, or is the next argument if that begins with no hyphen.
Behind two hyphens all arguments are positional. Arguments are taken in turn, so the first that is
refused or asks for help decides.
-/

set_option autoImplicit false

namespace SchemaWire.CommandLine

inductive Setting where
  | format
  | logFormat
  | logLevel
  | type
  | value
  | valueFile
  deriving DecidableEq, Repr

namespace Setting

def long : Setting → String
  | format => "format"
  | logFormat => "log-format"
  | logLevel => "log-level"
  | type => "type"
  | value => "value"
  | valueFile => "value-file"

def short? : Setting → Option Char
  | type => some 't'
  | _ => none

/-- Whether a setting can have this value. A path cannot be empty. -/
def admits : Setting → String → Bool
  | format, word => ["json", "table", "pretty", "raw"].contains word
  | logFormat, word => ["text", "json"].contains word
  | logLevel, word => ["off", "error", "warn", "info", "debug", "trace"].contains word
  | type, _ | value, _ => true
  | valueFile, path => path ≠ ""

end Setting

inductive Flag where
  | framed
  | check
  | extended
  deriving DecidableEq, Repr

def Flag.long : Flag → String
  | framed => "framed"
  | check => "check"
  | extended => "extended"

inductive Stop where
  | refused
  | help
  | version
  deriving DecidableEq, Repr

namespace Stop

def long : Stop → String
  | refused => ""
  | help => "help"
  | version => "version"

def short? : Stop → Option Char
  | refused => none
  | help => some 'h'
  | version => some 'V'

end Stop

inductive Positional where
  | path
  | hex
  deriving DecidableEq, Repr

def Positional.admits : Positional → String → Bool
  | path, text => text ≠ ""
  | hex, _ => true

structure Grammar where
  settings : List Setting
  flags : List Flag
  stops : List Stop
  positionals : List Positional
  /-- The words at which the part ends. -/
  commands : List String
  deriving DecidableEq, Repr

structure Arguments where
  settings : List (Setting × String)
  flags : List Flag
  positionals : List String
  deriving DecidableEq, Repr

inductive Item where
  | setting (setting : Setting)
  | flag (flag : Flag)
  | stop (stop : Stop)
  deriving DecidableEq, Repr

inductive Word where
  | plain
  | separator
  | item (item : Item) (attached : Option String)
  | unknown
  deriving DecidableEq, Repr

namespace Grammar

def long? (grammar : Grammar) (name : String) : Option Item :=
  ((grammar.settings.find? (·.long == name)).map .setting)
    <|> ((grammar.flags.find? (·.long == name)).map .flag)
    <|> ((grammar.stops.find? (·.long == name)).map .stop)

def short? (grammar : Grammar) (letter : Char) : Option Item :=
  ((grammar.settings.find? (·.short? == some letter)).map .setting)
    <|> ((grammar.stops.find? (·.short? == some letter)).map .stop)

def readLong (grammar : Grammar) (text : List Char) : Word :=
  let name := String.ofList (text.takeWhile (· ≠ '='))
  let attached :=
    match text.dropWhile (· ≠ '=') with
    | [] => none
    | _ :: value => some (String.ofList value)
  match grammar.long? name with
  | some item => .item item attached
  | none => .unknown

def readShort (grammar : Grammar) (letter : Char) (text : List Char) : Word :=
  let attached :=
    match text with
    | [] => none
    | '=' :: value => some (String.ofList value)
    | value => some (String.ofList value)
  match grammar.short? letter with
  | some item => .item item attached
  | none => .unknown

def read (grammar : Grammar) (argument : String) : Word :=
  match argument.toList with
  | ['-', '-'] => .separator
  | '-' :: '-' :: text => grammar.readLong text
  | '-' :: letter :: text => grammar.readShort letter text
  | _ => .plain

end Grammar

namespace Arguments

def empty : Arguments := ⟨[], [], []⟩

def setting? (arguments : Arguments) (setting : Setting) : Option String :=
  arguments.settings.lookup setting

def raised (arguments : Arguments) (flag : Flag) : Bool := arguments.flags.contains flag

def set (arguments : Arguments) (setting : Setting) (value : String) : Except Stop Arguments :=
  if (arguments.setting? setting).isNone ∧ setting.admits value then
    .ok { arguments with settings := (setting, value) :: arguments.settings }
  else .error .refused

def raise (arguments : Arguments) (flag : Flag) : Except Stop Arguments :=
  if arguments.raised flag then .error .refused
  else .ok { arguments with flags := flag :: arguments.flags }

def add (grammar : Grammar) (arguments : Arguments) (argument : String) : Except Stop Arguments :=
  match grammar.positionals[arguments.positionals.length]? with
  | some place =>
    if place.admits argument then
      .ok { arguments with positionals := arguments.positionals ++ [argument] }
    else .error .refused
  | none => .error .refused

/-- Take arguments in turn up to a command, which is left with what follows it. -/
def parse (grammar : Grammar) (found : Arguments) :
    List String → Except Stop (Arguments × List String)
  | [] => .ok (found, [])
  | argument :: rest =>
    match grammar.read argument with
    | .plain => do
      if grammar.commands.contains argument then return (found, argument :: rest)
      else parse grammar (← found.add grammar argument) rest
    | .separator => do
      let found ← rest.foldlM (add grammar) found
      return (found, [])
    | .item (.setting setting) (some value) => do
      parse grammar (← found.set setting value) rest
    | .item (.setting setting) none =>
      match rest with
      | [] => .error .refused
      | value :: rest => do
        if grammar.read value = .plain then parse grammar (← found.set setting value) rest
        else throw .refused
    | .item (.flag flag) none => do parse grammar (← found.raise flag) rest
    | .item (.stop stop) none => .error stop
    | .item (.stop stop) (some _) =>
      -- A letter that asks to stop is obeyed whatever is attached to it.
      if argument.toList.take 2 = ['-', '-'] then .error .refused else .error stop
    | .item (.flag _) (some _) | .unknown => .error .refused

end Arguments

end SchemaWire.CommandLine
