import LiteralBridge.Bridge.Basic
import LiteralBridge.Host.Echo

/-!
# Round trips through an echo

A value is encoded, given back by a host that echoes literals, and decoded as what the caller
expects.
-/

namespace LiteralBridge

/-- What a value is after a round trip through a fresh host that echoes. -/
def echoRoundTrip (config : Config) (v : Value) (kind : Kind) : Except BridgeError Value :=
  let bridge : Bridge EchoHost := ⟨config, {}⟩
  (Bridge.decoded (decode config kind) (bridge.sendPrepared (v.encode config))).1

end LiteralBridge
