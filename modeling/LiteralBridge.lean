import LiteralBridge.Bridge.Basic
import LiteralBridge.Bridge.Echo
import LiteralBridge.Bridge.Path
import LiteralBridge.Channel.Connection
import LiteralBridge.Command.Line
import LiteralBridge.Config.Document
import LiteralBridge.Host.Serve
import LiteralBridge.Main
import LiteralBridge.Remote.Prepared
import LiteralBridge.Value.Document
import LiteralBridge.Proofs.Literal.Grammar
import LiteralBridge.Proofs.Literal.Readers
import LiteralBridge.Proofs.Literal.Strings
import LiteralBridge.Proofs.Literal.Numbers
import LiteralBridge.Proofs.Literal.Names
import LiteralBridge.Proofs.Literal.Scalars
import LiteralBridge.Proofs.Literal.Brackets
import LiteralBridge.Proofs.Literal.Acceptance
import LiteralBridge.Proofs.Binary64.Scaling
import LiteralBridge.Proofs.Binary64.Nearest
import LiteralBridge.Proofs.Literal.Floats
import LiteralBridge.Proofs.Literal.Limit
import LiteralBridge.Proofs.Literal.Quoting
import LiteralBridge.Proofs.Literal.Rendering
import LiteralBridge.Proofs.Value.Tree
import LiteralBridge.Proofs.Value.Writing
import LiteralBridge.Proofs.Literal.Lines
import LiteralBridge.Proofs.Value.Agreement
import LiteralBridge.Proofs.Value.Tables
import LiteralBridge.Proofs.Kind.Tree
import LiteralBridge.Proofs.Value.Conversion
import LiteralBridge.Proofs.Value.Kinds
import LiteralBridge.Proofs.Value.RoundTrip
import LiteralBridge.Proofs.Text.Trimming
import LiteralBridge.Proofs.Value.Soundness
import LiteralBridge.Proofs.Value.Return
import LiteralBridge.Proofs.Bridge.Operations
import LiteralBridge.Proofs.Literal.Unique
import LiteralBridge.Proofs.Bridge.Requests
import LiteralBridge.Proofs.Literal.Paths
import LiteralBridge.Proofs.Text.Cutting
import LiteralBridge.Proofs.Host.Echo
import LiteralBridge.Proofs.Bridge.Store
import LiteralBridge.Proofs.Framing.Responses
import LiteralBridge.Proofs.Host.Lines
import LiteralBridge.Proofs.Host.Replay
import LiteralBridge.Proofs.Bridge.Exchanges
import LiteralBridge.Proofs.Json.Tokens
import LiteralBridge.Proofs.MessageId
import LiteralBridge.Proofs.Envelope.RoundTrip
import LiteralBridge.Proofs.Remote.Network
import LiteralBridge.Proofs.Remote.Calls
import LiteralBridge.Proofs.Remote.Loopback
import LiteralBridge.Proofs.Bridge.Echo
import LiteralBridge.Proofs.Json.Tree
import LiteralBridge.Proofs.Value.Document
import LiteralBridge.Proofs.Command.RoundTrip
import LiteralBridge.Proofs.Literal.Endings
import LiteralBridge.Proofs.Literal.Delimited
import LiteralBridge.Proofs.Value.Refusals
import LiteralBridge.Proofs.Host.Canonical
import LiteralBridge.Proofs.Framing.Lines
import LiteralBridge.Proofs.Framing.Faults
import LiteralBridge.Proofs.Channel.Stream
import LiteralBridge.Proofs.Bridge.Path
import LiteralBridge.Proofs.Remote.Server
import LiteralBridge.Proofs.Channel.Faulty
import LiteralBridge.Proofs.Value.Reordered
import LiteralBridge.Proofs.Literal.Quotes
import LiteralBridge.Proofs.Bridge.Assignment
import LiteralBridge.Proofs.Value.Cells
import LiteralBridge.Proofs.Value.Views
import LiteralBridge.Proofs.Text.Places
import LiteralBridge.Proofs.Value.Undecodable
import LiteralBridge.Proofs.Channel.Order
import LiteralBridge.Proofs.Walker.Texts
