import LiteralBridge.Channel.Faulty
import LiteralBridge.Channel.Scripted
import LiteralBridge.Channel.Stream
import LiteralBridge.Host.Echo
import LiteralBridge.Proofs.Envelope.RoundTrip
import LiteralBridge.Remote.Loopback

/-!
# Connections that are put together at run time

A connection is a channel of one of the known sorts, or one of them inside recordings and planned
faults. It behaves as the channel that it is made of.
-/

namespace LiteralBridge

/-- A channel whose sort is known at run time only. -/
inductive Connection where
  | echo (host : EchoHost)
  | scripted (script : Script)
  | stream (stream : LineStream)
  | message (client : Client .json (Loopback .json EchoHost))
  | recording (inner : Connection) (requests : List String)
  | faulty (inner : Connection) (faults : Faults)

namespace Connection

def execute : Connection → String → Reply × Connection
  | echo host, source =>
    let (reply, host) := Channel.execute host source
    (reply, echo host)
  | scripted script, source =>
    let (reply, script) := Channel.execute script source
    (reply, scripted script)
  | stream lines, source =>
    let (reply, lines) := Channel.execute lines source
    (reply, stream lines)
  | message client, source =>
    let (reply, client) := Channel.execute client source
    (reply, message client)
  | recording inner requests, source =>
    let (reply, inner) := inner.execute source
    (reply, recording inner (requests ++ [source]))
  | faulty inner faults, source =>
    match faults.meet? source with
    | some (e, faults) => (.error e, faulty inner faults)
    | none =>
      let (reply, inner) := inner.execute source
      let (reply, faults) := faults.settle reply
      (reply, faulty inner faults)

instance : Channel Connection := ⟨execute⟩

/-- The echoing host below all recordings and planned faults. -/
def host? : Connection → Option EchoHost
  | echo host => some host
  | recording inner _ | faulty inner _ => inner.host?
  | _ => none

/-- A connection over envelopes to a host in the same process, with consecutive identifiers. -/
def overEnvelopes (host : EchoHost) : Connection :=
  message ⟨⟨host, none⟩, fun n => ⟨BitVec.ofNat 128 n⟩, 0⟩

/-- A layer of recording behaves as the channel of recordings does. -/
theorem execute_recording (inner : Connection) (requests : List String) (source : String) :
    (recording inner requests).execute source =
      let (reply, after) := Channel.execute (Recording.mk inner requests) source
      (reply, recording after.inner after.requests) := rfl

/-- A layer of planned faults behaves as the channel of planned faults does. -/
theorem execute_faulty (inner : Connection) (faults : Faults) (source : String) :
    (faulty inner faults).execute source =
      let (reply, after) := Channel.execute (Faulty.mk inner faults) source
      (reply, faulty after.inner after.faults) := by
  simp only [execute, Channel.execute]
  cases faults.meet? source <;> rfl

end Connection

end LiteralBridge
