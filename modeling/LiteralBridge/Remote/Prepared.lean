import LiteralBridge.Remote.Client

/-!
# A transport with a prepared reply

The frames sent are kept, and one frame or failure that was fixed in advance is received.
-/

namespace LiteralBridge

/-- A transport that gives one reply. -/
structure PreparedTransport where
  /-- Why sending fails, if it does. -/
  sendFault : Option ExchangeError := none
  /-- What is received; nothing once it is received. -/
  reply : Option (Except ExchangeError ByteArray) := none
  /-- The frames handed over so far, in order. -/
  sent : List ByteArray := []

namespace PreparedTransport

/-- What a receiver gets after the reply is used up. -/
def exhausted : ExchangeError :=
  .transport "no reply left"

instance : Transport PreparedTransport where
  send transport frame :=
    (match transport.sendFault with
      | some e => .error e
      | none => .ok (),
      { transport with sent := transport.sent ++ [frame] })
  receive transport :=
    (transport.reply.getD (.error exhausted), { transport with reply := none })

end PreparedTransport

end LiteralBridge
