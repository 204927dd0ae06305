import SchemaWire.CommandLine.Run

/-! The program: it gathers what a command reads, runs the command, and writes what it leaves. -/

set_option autoImplicit false

namespace SchemaWire.CommandLine

def ioErrorOf : IO.Error → IoError
  | .noFileOrDirectory .. => .noSuchFile
  | .permissionDenied .. => .accessDenied
  | .inappropriateType .. => .isDirectory
  | error => ⟨.other, toString error⟩

def readContents (path : String) : IO (Except IoError Bytes) := do
  try
    let contents ← IO.FS.readBinFile path
    return .ok contents.toList
  catch error => return .error (ioErrorOf error)

partial def readToEnd (stream : IO.FS.Stream) (found : ByteArray) : IO ByteArray := do
  let piece ← stream.read 65536
  if piece.isEmpty then return found else readToEnd stream (found ++ piece)

def readStdin : IO (Except IoError Bytes) := do
  try
    let contents ← readToEnd (← IO.getStdin) ByteArray.empty
    return .ok contents.toList
  catch error => return .error (ioErrorOf error)

def gather (logLevel : Option String) (arguments : List String) : IO Environment := do
  -- The width of a terminal is not asked for: its own line breaks wrap a table that is too wide.
  let terminal := if ← (← IO.getStdout).isTty then some Table.text else none
  match Invocation.parse logLevel arguments with
  | .error _ =>
    return { contentsAt := fun _ => .error .noSuchFile, stdin := .ok [], terminal, logLevel }
  | .ok invocation =>
    let files ← invocation.command.files.mapM fun path => do return (path, ← readContents path)
    let stdin ← if invocation.command.readsStdin then readStdin else pure (.ok [])
    let contentsAt := fun path => (files.lookup path).getD (.error .noSuchFile)
    return { contentsAt, stdin, terminal, logLevel }

end SchemaWire.CommandLine

def main (arguments : List String) : IO UInt32 := do
  let logLevel ← IO.getEnv "TAGWIRE_LOG_LEVEL"
  let environment ← SchemaWire.CommandLine.gather logLevel arguments
  let outcome := SchemaWire.CommandLine.run environment arguments
  let stdout ← IO.getStdout
  stdout.write ⟨outcome.stdout.toArray⟩
  stdout.flush
  (← IO.getStderr).putStr outcome.stderr
  return outcome.exit.code
