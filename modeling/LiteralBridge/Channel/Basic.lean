import LiteralBridge.Framing.Line
import LiteralBridge.Remote.Error

/-!
# Channels

A channel executes one source text at a time in a host and gives back the text of the result. Its
state is a value: executing a source yields the reply and the channel after it.
-/

namespace LiteralBridge

/-- Why a round trip failed by itself. The host may have evaluated the request or not. -/
inductive TransportFault where
  | hostClosed
  /-- The line of the response is not UTF-8. -/
  | notText
  | badFrame (e : Framing.FramingError)
  | exchange (e : ExchangeError)
  /-- A script has no response left. -/
  | scriptExhausted
  | requestDropped
  | channelClosed
deriving DecidableEq

def TransportFault.message : TransportFault → String
  | hostClosed => "host closed the channel"
  | notText => "stream did not contain valid UTF-8"
  | badFrame e => e.message
  | exchange e => e.message
  | scriptExhausted => "no scripted response left"
  | requestDropped => "request dropped"
  | channelClosed => "channel closed"

/-- Why a request has no result. -/
inductive ChannelError where
  /-- The host evaluated the request and reported an error. -/
  | remote (fault : RemoteFault)
  | transport (fault : TransportFault)
deriving DecidableEq

def ChannelError.message : ChannelError → String
  | remote fault => fault.display
  | transport fault => "transport error: " ++ fault.message

/-- What a channel gives back for a request. -/
abbrev Reply := Except ChannelError String

/-- The reply that attributes a result to the request with a source. -/
def Reply.ofResult (source : String) : Except RemoteFault String → Reply
  | .ok text => .ok text
  | .error fault => .error (.remote (fault.withRequest source))

@[simp] theorem Reply.ofResult_ok (source text : String) : ofResult source (.ok text) = .ok text :=
  rfl

@[simp] theorem Reply.ofResult_error (source : String) (fault : RemoteFault) :
    ofResult source (.error fault) = .error (.remote (fault.withRequest source)) :=
  rfl

/-- A connection to a host. -/
class Channel (σ : Type) where
  /-- Sends one expression or statement and waits for what the host gives back. -/
  execute : σ → String → Reply × σ

/-- A host that evaluates source texts. -/
class Evaluator (ε : Type) where
  /-- Evaluates one expression or statement. -/
  evaluate : ε → String → Except RemoteFault String × ε

def executeAll {σ : Type} [Channel σ] (channel : σ) : List String → List Reply × σ
  | [] => ([], channel)
  | source :: rest =>
    let (reply, channel) := Channel.execute channel source
    let (replies, channel) := executeAll channel rest
    (reply :: replies, channel)

end LiteralBridge
