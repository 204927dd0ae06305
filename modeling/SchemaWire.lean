import SchemaWire.Bytes
import SchemaWire.Codec.Basic
import SchemaWire.Codec.CasePath
import SchemaWire.Codec.Decode
import SchemaWire.Codec.Encode
import SchemaWire.Codec.Error
import SchemaWire.Codec.Put
import SchemaWire.CommandLine.Arguments
import SchemaWire.CommandLine.Command
import SchemaWire.CommandLine.Directory
import SchemaWire.CommandLine.Exit
import SchemaWire.CommandLine.Run
import SchemaWire.CommandLine.Table
import SchemaWire.Decimal.Binary64
import SchemaWire.Decimal.Natural
import SchemaWire.Decimal.Shortest
import SchemaWire.Frame.Compression
import SchemaWire.Frame.Error
import SchemaWire.Frame.Message
import SchemaWire.Frame.Reader
import SchemaWire.Frame.Session
import SchemaWire.Frame.Writer
import SchemaWire.Hex
import SchemaWire.Json.Basic
import SchemaWire.Json.NumberLiteral
import SchemaWire.Json.Parser
import SchemaWire.Json.StringLiteral
import SchemaWire.Json.Text
import SchemaWire.Json.Token
import SchemaWire.Main
import SchemaWire.Numeral
import SchemaWire.Proofs.Acceptance
import SchemaWire.Proofs.Appending
import SchemaWire.Proofs.Arrangement
import SchemaWire.Proofs.BigEndian
import SchemaWire.Proofs.Bindings
import SchemaWire.Proofs.CanonicalText
import SchemaWire.Proofs.CanonicalValue
import SchemaWire.Proofs.Canonicity
import SchemaWire.Proofs.CasePath
import SchemaWire.Proofs.CommandRoundTrip
import SchemaWire.Proofs.DecimalText
import SchemaWire.Proofs.DecodeCommand
import SchemaWire.Proofs.DecodedSize
import SchemaWire.Proofs.Decoding
import SchemaWire.Proofs.DefinitionOrder
import SchemaWire.Proofs.Delivery
import SchemaWire.Proofs.DepthFirst
import SchemaWire.Proofs.DepthLimit
import SchemaWire.Proofs.Encodable
import SchemaWire.Proofs.EncodeCommand
import SchemaWire.Proofs.EncodeFailure
import SchemaWire.Proofs.Encoding
import SchemaWire.Proofs.Endings
import SchemaWire.Proofs.ExitCodes
import SchemaWire.Proofs.FirstFault
import SchemaWire.Proofs.HexRefusal
import SchemaWire.Proofs.HexText
import SchemaWire.Proofs.JsonForm
import SchemaWire.Proofs.JsonLiterals
import SchemaWire.Proofs.JsonNesting
import SchemaWire.Proofs.JsonParts
import SchemaWire.Proofs.JsonRoundTrip
import SchemaWire.Proofs.JsonText
import SchemaWire.Proofs.KnownTypes
import SchemaWire.Proofs.LaterNames
import SchemaWire.Proofs.LeadingIdentifier
import SchemaWire.Proofs.Leftovers
import SchemaWire.Proofs.LineNumbers
import SchemaWire.Proofs.MessageBuffer
import SchemaWire.Proofs.MessageCounting
import SchemaWire.Proofs.MessageFormat
import SchemaWire.Proofs.MessageQueue
import SchemaWire.Proofs.MessageReading
import SchemaWire.Proofs.MessageWriting
import SchemaWire.Proofs.NameOrder
import SchemaWire.Proofs.Numbering
import SchemaWire.Proofs.Outcome
import SchemaWire.Proofs.PrefixedPayloads
import SchemaWire.Proofs.Printing
import SchemaWire.Proofs.RoundTrip
import SchemaWire.Proofs.SchemaLine
import SchemaWire.Proofs.SelfDelimiting
import SchemaWire.Proofs.SelfReference
import SchemaWire.Proofs.SingleMessage
import SchemaWire.Proofs.Typing
import SchemaWire.Proofs.UncheckedCounts
import SchemaWire.Proofs.Validation
import SchemaWire.Proofs.ValueParts
import SchemaWire.Proofs.Varint
import SchemaWire.Proofs.VarintCode
import SchemaWire.Proofs.VarintWord
import SchemaWire.Proofs.Words
import SchemaWire.Proofs.ZeroStripping
import SchemaWire.Schema.Compiled
import SchemaWire.Schema.Definition
import SchemaWire.Schema.IdentifierTable
import SchemaWire.Schema.Namespace
import SchemaWire.Schema.Text
import SchemaWire.Stream.Error
import SchemaWire.Stream.Sink
import SchemaWire.Stream.Source
import SchemaWire.Text.Extending
import SchemaWire.Text.Printable
import SchemaWire.Text.Quoted
import SchemaWire.Text.Ranges
import SchemaWire.Text.Utf8
import SchemaWire.Text.Width
import SchemaWire.Text.Width.Character
import SchemaWire.Text.Width.Emoji
import SchemaWire.Text.Width.Ligature
import SchemaWire.Text.Words
import SchemaWire.TypedJson.Error
import SchemaWire.TypedJson.Reading
import SchemaWire.TypedJson.Writing
import SchemaWire.Value
import SchemaWire.Varint
