import SchemaWire.Frame.Error
import SchemaWire.Schema.Compiled
import SchemaWire.Text.Utf8
import SchemaWire.TypedJson.Error

/-! How a run of the program ends.

The exit code tells the caller's mistakes from bad data: a type that is not bound is the former,
data that does not fit its type the latter.
-/

set_option autoImplicit false

namespace SchemaWire.CommandLine

inductive Exit where
  | success
  /-- A check found something amiss. -/
  | failure
  /-- The arguments were not understood. -/
  | refused
  | permissionDenied
  | notFound
  | dataInvalid
  | usage
  | internal
  deriving DecidableEq, Repr

def Exit.code : Exit → UInt32
  | success => 0
  | failure => 1
  | refused => 2
  | permissionDenied => 50
  | notFound => 51
  | dataInvalid => 60
  | usage => 64
  | internal => 125

structure Failure where
  exit : Exit
  message : String
  deriving DecidableEq, Repr

namespace Failure

def inContext (exit : Exit) (context message : String) : Failure := ⟨exit, s!"{context}: {message}"⟩

def ofIo (context : String) (error : IoError) : Failure :=
  let exit :=
    match error.kind with
    | .permissionDenied => .permissionDenied
    | .notFound => .notFound
    | .unexpectedEof | .invalidData => .dataInvalid
    | _ => .internal
  inContext exit context error.text

def ofCompile (context : String) : CompileError → Failure
  | .unreadable _ cause => ofIo context cause
  | error => inContext .dataInvalid context error.message

def ofCodec (context : String) (error : CodecError) : Failure :=
  match error with
  | .unknownType _ => inContext .usage context error.message
  | error => inContext .dataInvalid context error.message

def ofFrame (context : String) : FrameError → Failure
  | .readFailed cause | .writeFailed cause => ofIo context cause
  | .codec cause => ofCodec context cause
  | error => inContext .dataInvalid context error.message

def ofJson (context : String) (error : JsonError) : Failure :=
  match error with
  | .unknownType _ => inContext .usage context error.message
  | error => inContext .dataInvalid context error.message

end Failure

structure Outcome where
  exit : Exit
  stdout : Bytes
  stderr : String
  deriving DecidableEq, Repr

namespace Outcome

def print (text : String) : Outcome := ⟨.success, Bytes.ofText text, ""⟩

def printLine (text : String) : Outcome := print (text ++ "\n")

def ofFailure (failure : Failure) : Outcome := ⟨failure.exit, [], s!"error: {failure.message}\n"⟩

end Outcome

end SchemaWire.CommandLine
