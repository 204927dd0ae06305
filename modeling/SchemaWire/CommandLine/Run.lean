import SchemaWire.CommandLine.Command
import SchemaWire.CommandLine.Exit
import SchemaWire.CommandLine.Table
import SchemaWire.Frame.Reader
import SchemaWire.Frame.Writer
import SchemaWire.Json.Parser
import SchemaWire.Json.Text
import SchemaWire.TypedJson.Reading
import SchemaWire.TypedJson.Writing

/-! Running commands.

What a command reads is given beforehand, so that a run is a function from its surroundings to its
exit code and its output. A command that fails writes nothing to standard output.
-/

set_option autoImplicit false

namespace SchemaWire.CommandLine

structure Platform where
  target : String
  os : String
  architecture : String

structure Environment where
  contentsAt : String → Except IoError Bytes
  stdin : Except IoError Bytes
  /-- How tables are laid out to fit the terminal that standard output is, if it is one. -/
  terminal : Option (Table → String) := none
  logLevel : Option String := none
  platform : Platform := ⟨"unknown", "linux", "x86_64"⟩

abbrev Work (α : Type) := Except Failure α

namespace Environment

def textOf (contents : Except IoError Bytes) : Except IoError String := do
  match (← contents).toText? with
  | some text => return text
  | none => throw .notText

def readText (environment : Environment) (path : String) : Except IoError String :=
  textOf (environment.contentsAt path)

def loadSchema (environment : Environment) (path : String) : Work Schema :=
  (Schema.compileFile path (environment.readText path)).mapError
    (.ofCompile s!"invalid schema {path}")

def valueText (environment : Environment) : ValueOrigin → Work String
  | .text json => .ok json
  | .file path => (environment.readText path).mapError (.ofIo s!"failed reading {path}")
  | .stdin => (textOf environment.stdin).mapError (.ofIo "failed reading stdin")

def readValue (environment : Environment) (origin : ValueOrigin) : Work Json := do
  let text ← environment.valueText origin
  match Json.parse? text with
  | some json => return json
  | none => throw ⟨.usage, "value is not valid JSON: unexpected text"⟩

def decodeInput (environment : Environment) : Option String → Work Bytes
  | some hex =>
    (Hex.decode hex).mapError fun cause => .inContext .usage "invalid hex input" cause.message
  | none => environment.stdin.mapError (.ofIo "failed reading stdin")

/-- People get the pretty format unless they ask for another one, and programs get JSON. -/
def formatFor (environment : Environment) (asked : Option Format) : Format :=
  asked.getD (if environment.terminal.isSome then .pretty else .json)

def layout (environment : Environment) : Table → String := environment.terminal.getD Table.text

end Environment

def number (n : Nat) : Json := .number (.natural (UInt64.ofNat n))

def printJson (json : Json) : Outcome := .printLine json.compact

def printTable (environment : Environment) (table : Table) : Outcome :=
  .printLine (environment.layout table)

def frame (payload : Bytes) : Work Bytes :=
  let (outcome, sink) := Sink.willing.writeMessage payload
  (outcome.map fun () => sink.received).mapError (.ofFrame "framing failed")

def unframe (input : Bytes) : Work Bytes :=
  match read : (Source.ofBytes input).readMessage with
  | (.ok payload, source) =>
    let left := source.current.length
    if left = 0 then .ok payload
    else .error (.inContext .dataInvalid "invalid frame" s!"{left} bytes after the message")
  | (.error (.failed cause), _) => .error (.ofFrame "invalid frame" cause)
  | (.error .panic, _) => absurd (congrArg Prod.fst read) (Source.readMessage_ne_panic _)

namespace Command

def runCheck (environment : Environment) (format : Format) (path : String) : Work Outcome := do
  let schema ← environment.loadSchema path
  let types := schema.types.size
  match format with
  | .json =>
    return printJson
      (.object [("schema", .string path), ("valid", .bool true), ("types", number types)])
  | .table =>
    return printTable environment
      ⟨["SCHEMA", "VALID", "TYPES"], [[path, "yes", Numeral.decimal types]]⟩
  | .pretty | .raw => return .printLine s!"{path}: ok ({types} types)"

def identifierRows (schema : Schema) : List (String × Identifier × Kind) :=
  schema.identifiers.entries.filterMap fun (name, identifier) =>
    (schema.types.find? name).map fun definition => (name, identifier, definition.kind)

/-- A number at the right end of four columns. -/
def alignRight (n : Nat) : String :=
  let digits := (Numeral.decimal n).toList
  String.ofList (List.replicate (4 - digits.length) ' ' ++ digits)

def showIdentifiers (environment : Environment) (format : Format)
    (rows : List (String × Identifier × Kind)) : Outcome :=
  match format with
  | .json =>
    let row := fun (name, identifier, (kind : Kind)) =>
      Json.object [("name", .string name), ("identifier", number identifier),
        ("kind", .string kind.keyword)]
    printJson (.array (rows.map row))
  | .table =>
    let row := fun (name, identifier, (kind : Kind)) =>
      [Numeral.decimal identifier, name, kind.keyword]
    printTable environment ⟨["ID", "NAME", "KIND"], rows.map row⟩
  | .pretty | .raw =>
    let row := fun (name, identifier, (kind : Kind)) =>
      s!"{alignRight identifier}  {name}  ({kind.keyword})\n"
    .print (String.join (rows.map row))

def runIds (environment : Environment) (format : Format) (path : String) : Work Outcome := do
  let schema ← environment.loadSchema path
  return showIdentifiers environment format (identifierRows schema)

def runFmt (environment : Environment) (path : String) (check : Bool) : Work Outcome := do
  let schema ← environment.loadSchema path
  let canonical := schema.types.render
  if check then
    let current ← (environment.readText path).mapError (.ofIo s!"failed reading {path}")
    if current = canonical then return .print ""
    else return ⟨.failure, [], s!"{path}: not in canonical form\n"⟩
  else return .print canonical

def showEncoded (environment : Environment) (format : Format) (type : String)
    (identifier : Identifier) (framed : Bool) (bytes : Bytes) : Outcome :=
  match format with
  | .json =>
    printJson (.object [("type", .string type), ("identifier", number identifier),
      ("framed", .bool framed), ("size", number bytes.length), ("hex", .string (Hex.encode bytes))])
  | .table =>
    printTable environment ⟨["TYPE", "ID", "SIZE", "HEX"],
      [[type, Numeral.decimal identifier, Numeral.decimal bytes.length, Hex.encode bytes]]⟩
  | .pretty => .printLine (Hex.encode bytes)
  | .raw => ⟨.success, bytes, ""⟩

def runEncode (environment : Environment) (format : Format) (path type : String)
    (origin : ValueOrigin) (framed : Bool) : Work Outcome := do
  let schema ← environment.loadSchema path
  let json ← environment.readValue origin
  let value ← (schema.types.valueOfJson type json).mapError (.ofJson "invalid value")
  let payload ← (schema.codec.encode type value).mapError (.ofCodec "encode failed")
  let identifier ← (schema.codec.identifier type).mapError (.ofCodec "encode failed")
  let bytes ← if framed then frame payload else pure payload
  return showEncoded environment format type identifier framed bytes

def showDecoded (environment : Environment) (format : Format) (type : String) (json : Json) :
    Outcome :=
  match format with
  | .json => printJson (.object [("type", .string type), ("value", json)])
  | .table => printTable environment ⟨["TYPE", "VALUE"], [[type, json.compact]]⟩
  | .pretty => .printLine json.pretty
  | .raw => printJson json

def runDecode (environment : Environment) (format : Format) (path type : String)
    (hex : Option String) (framed : Bool) : Work Outcome := do
  let schema ← environment.loadSchema path
  let input ← environment.decodeInput hex
  let payload ← if framed then unframe input else pure input
  let value ← (schema.codec.decode type payload).mapError (.ofCodec "decode failed")
  let json ← (schema.types.jsonOfValue type value).mapError (.ofJson "decode failed")
  return showDecoded environment format type json

def versionText : String := "tagwire 0.1.0"

def runVersion (platform : Platform) (extended : Bool) : Outcome :=
  let details := [s!"target: {platform.target}", s!"target_os: {platform.os}",
    s!"target_arch: {platform.architecture}", s!"first_user_identifier: {Identifier.first}",
    s!"max_message_payload: {Message.defaultLimit.toNat}"]
  .printLine ("\n".intercalate (versionText :: if extended then details else []))

def run (environment : Environment) (format : Format) : Command → Work Outcome
  | check path => runCheck environment format path
  | ids path => runIds environment format path
  | fmt path checks => runFmt environment path checks
  | encode path type origin framed => runEncode environment format path type origin framed
  | decode path type hex framed => runDecode environment format path type hex framed
  | version extended => .ok (runVersion environment.platform extended)

end Command

namespace Invocation

def run (environment : Environment) (invocation : Invocation) : Outcome :=
  match invocation.command.run environment (environment.formatFor invocation.format) with
  | .ok outcome => outcome
  | .error failure => .ofFailure failure

def usage : String :=
  "Usage: tagwire [OPTIONS] <check|ids|fmt|encode|decode|version|help> [ARGUMENTS]\n"

end Invocation

def Stop.outcome : Stop → Outcome
  | refused => ⟨.refused, [], s!"error: arguments not understood\n\n{Invocation.usage}"⟩
  | help => .print Invocation.usage
  | version => .printLine Command.versionText

def run (environment : Environment) (arguments : List String) : Outcome :=
  match Invocation.parse environment.logLevel arguments with
  | .ok invocation => invocation.run environment
  | .error stop => stop.outcome

end SchemaWire.CommandLine
