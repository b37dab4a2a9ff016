import LiteralBridge.Channel.Basic

/-!
# The host side of an exchange of envelopes

A frame is evaluated only if it is a request of a compatible version, and it is answered under its
own identifier.
-/

namespace LiteralBridge

def acceptFrame (wire : Wire) (frame : ByteArray) : Except ExchangeError ExecutionRequest :=
  match wire.request.read? frame with
  | none => .error .malformed
  | some request => do
    checkVersion request.version
    .ok request

/-- Handles the frame of a request: the frame of the response. -/
def handleFrame (wire : Wire) {ε : Type} [Evaluator ε] (host : ε) (frame : ByteArray) :
    Except ExchangeError ByteArray × ε :=
  match acceptFrame wire frame with
  | .error e => (.error e, host)
  | .ok request =>
    let (result, host) := Evaluator.evaluate host request.source
    (.ok (wire.response.write (.ofResult request.id result)), host)

end LiteralBridge
