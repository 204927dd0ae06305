/-! Failures of streams and files. -/

set_option autoImplicit false

namespace SchemaWire

inductive IoErrorKind where
  | interrupted
  | wouldBlock
  | connectionReset
  | brokenPipe
  | unexpectedEof
  | timedOut
  | writeZero
  | notFound
  | permissionDenied
  | isADirectory
  | notADirectory
  | invalidData
  | other
  deriving DecidableEq, Repr

def IoErrorKind.text : IoErrorKind → String
  | interrupted => "operation interrupted"
  | wouldBlock => "operation would block"
  | connectionReset => "connection reset"
  | brokenPipe => "broken pipe"
  | unexpectedEof => "unexpected end of file"
  | timedOut => "timed out"
  | writeZero => "write zero"
  | notFound => "entity not found"
  | permissionDenied => "permission denied"
  | isADirectory => "is a directory"
  | notADirectory => "not a directory"
  | invalidData => "invalid data"
  | other => "other error"

structure IoError where
  kind : IoErrorKind
  text : String
  deriving DecidableEq, Repr

namespace IoError

def ofKind (kind : IoErrorKind) : IoError := ⟨kind, kind.text⟩

def closed : IoError := ⟨.unexpectedEof, "channel closed before a complete message"⟩

def stalled : IoError := ofKind .writeZero

/-- The failures of opening and reading files, with the numbers that systems give them. -/
def noSuchFile : IoError := ⟨.notFound, "No such file or directory (os error 2)"⟩

def accessDenied : IoError := ⟨.permissionDenied, "Permission denied (os error 13)"⟩

def notDirectory : IoError := ⟨.notADirectory, "Not a directory (os error 20)"⟩

def isDirectory : IoError := ⟨.isADirectory, "Is a directory (os error 21)"⟩

def notText : IoError := ⟨.invalidData, "stream did not contain valid UTF-8"⟩

def interruptsReading (error : IoError) : Bool := error.kind == .interrupted

def interruptsWriting (error : IoError) : Bool :=
  error.kind == .interrupted || error.kind == .wouldBlock

end IoError

end SchemaWire
