import LiteralBridge.Remote.Client
import LiteralBridge.Remote.Server

/-!
# A transport straight into a host

Each frame that is sent is handled at once; the response waits until it is received.
-/

namespace LiteralBridge

/-- A transport to a host in the same process. -/
structure Loopback (wire : Wire) (ε : Type) where
  host : ε
  /-- The response that waits to be received. -/
  pending : Option ByteArray := none

instance {wire : Wire} {ε : Type} [Evaluator ε] : Transport (Loopback wire ε) where
  send loopback frame :=
    match handleFrame wire loopback.host frame with
    | (.ok response, host) => (.ok (), ⟨host, some response⟩)
    | (.error e, host) => (.error e, ⟨host, loopback.pending⟩)
  receive loopback :=
    match loopback.pending with
    | some response => (.ok response, ⟨loopback.host, none⟩)
    | none => (.error (.transport "no response pending"), loopback)

end LiteralBridge
