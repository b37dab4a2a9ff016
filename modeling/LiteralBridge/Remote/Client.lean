import LiteralBridge.Channel.Basic

/-!
# The calling side of an exchange of envelopes

A call sends one frame and receives one. The response counts only if its version is compatible and
it answers the request. Identifiers come from a supply that is fixed in advance; whoever needs them
distinct chooses it so.
-/

namespace LiteralBridge

class Transport (τ : Type) where
  send : τ → ByteArray → Except ExchangeError Unit × τ
  receive : τ → Except ExchangeError ByteArray × τ

structure Client (wire : Wire) (τ : Type) where
  transport : τ
  /-- The identifiers of the first call, the second, and so on. -/
  ids : Nat → MessageId
  /-- The number of calls so far. -/
  calls : Nat := 0

/-- The outcome in a frame that should answer the request with an identifier. -/
def acceptResponse (wire : Wire) (id : MessageId) (frame : ByteArray) : Except ExchangeError Outcome :=
  match wire.response.read? frame with
  | none => .error .malformed
  | some response => do
    checkVersion response.version
    if response.correlationId = id then .ok response.outcome
    else .error (.foreign id response.correlationId)

namespace Client

variable {wire : Wire} {τ : Type} [Transport τ]

def call (client : Client wire τ) (source : String) :
    Except ExchangeError Outcome × Client wire τ :=
  let id := client.ids client.calls
  let after (transport : τ) : Client wire τ := ⟨transport, client.ids, client.calls + 1⟩
  match Transport.send client.transport (wire.request.write (.ofSource id source)) with
  | (.error e, transport) => (.error e, after transport)
  | (.ok (), transport) =>
    match Transport.receive transport with
    | (.error e, transport) => (.error e, after transport)
    | (.ok frame, transport) => (acceptResponse wire id frame, after transport)

instance : Channel (Client wire τ) where
  execute client source :=
    match client.call source with
    | (.ok outcome, client) => (Reply.ofResult source outcome.result, client)
    | (.error e, client) => (.error (.transport (.exchange e)), client)

end Client

end LiteralBridge
