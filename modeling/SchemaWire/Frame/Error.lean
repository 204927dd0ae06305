import SchemaWire.Codec.Error
import SchemaWire.Stream.Error

/-! Why a message cannot be moved. -/

set_option autoImplicit false

namespace SchemaWire

def maxCountLength : Nat := 8

inductive FrameError where
  | countTooBig (length : Nat)
  | payloadTooLarge (size : Nat) (limit : UInt64)
  | readFailed (cause : IoError)
  | writeFailed (cause : IoError)
  | codec (cause : CodecError)
  deriving DecidableEq, Repr

def FrameError.message : FrameError → String
  | countTooBig length => s!"count too big ({length} bytes, max {maxCountLength})"
  | payloadTooLarge size limit => s!"payload too large ({size} bytes, max {limit.toNat})"
  | readFailed cause => s!"read failed: {cause.text}"
  | writeFailed cause => s!"write failed: {cause.text}"
  | codec cause => cause.message

/-- Why nothing comes of looking for a message. A panic carries no error: the caller is not answered
at all. -/
inductive Halt where
  | failed (cause : FrameError)
  | panic
  deriving DecidableEq, Repr

end SchemaWire
