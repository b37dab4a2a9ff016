import LiteralBridge.Channel.Basic
import LiteralBridge.Decode
import LiteralBridge.Encode

/-!
# Bridges to a host

A bridge reads, writes and calls on objects that live in the host. A request is encoded as a whole
before anything is sent, so a value or a name that has no place in one never reaches the host; its
answer is decoded afterwards, so a failure to decode means that the host has done what was asked.
-/

namespace LiteralBridge

/-- Why an operation on the host failed. -/
inductive BridgeError where
  | unencodable (e : EncodeError)
  | undecodable (e : DecodeError)
  | channel (e : ChannelError)

namespace BridgeError

def message : BridgeError → String
  | unencodable e => e.message
  | undecodable e => e.message
  | channel e => e.message

/-- The host has evaluated the request, but its answer is not known. -/
def isPartial : BridgeError → Bool
  | undecodable _ => true
  | _ => false

/-- Nothing was sent to the host. -/
def isBeforeSend : BridgeError → Bool
  | unencodable _ => true
  | _ => false

end BridgeError

/-! ## Requests -/

namespace Handle

def callSource (config : Config) (h : Handle) (method : String) (positional : List Value)
    (keyword : List (String × Value)) : Except EncodeError String := do
  let target ← h.child method
  let arguments ← encodeArguments config positional keyword
  .ok (target.accessor ++ "(" ++ arguments ++ ")")

def assignmentSource (config : Config) (h : Handle) (field : String) (v : Value) :
    Except EncodeError String := do
  let target ← h.child field
  let text ← v.encode config
  .ok (target.accessor ++ " = " ++ text)

end Handle

/-- A channel and the settings used over it. -/
structure Bridge (σ : Type) where
  config : Config
  channel : σ

namespace Bridge

variable {σ : Type} [Channel σ]

/-! ## Exchanges -/

def send (bridge : Bridge σ) (source : String) : Except BridgeError String × Bridge σ :=
  let (reply, channel) := Channel.execute bridge.channel source
  (reply.mapError .channel, { bridge with channel := channel })

/-- Sends what was prepared as a request, unless the preparation failed. -/
def sendPrepared (bridge : Bridge σ) : Except EncodeError String →
    Except BridgeError String × Bridge σ
  | .ok source => bridge.send source
  | .error e => (.error (.unencodable e), bridge)

/-- The outcome of an operation after its answer is decoded. -/
def decoded {α : Type} (read : String → Except DecodeError α) :
    Except BridgeError String × Bridge σ → Except BridgeError α × Bridge σ
  | (.ok text, bridge) => ((read text).mapError .undecodable, bridge)
  | (.error e, bridge) => (.error e, bridge)

/-! ## Operations -/

/-- Evaluates a source and decodes the result. -/
def evaluate (bridge : Bridge σ) (source : String) (kind : Kind) :
    Except BridgeError Value × Bridge σ :=
  decoded (decode bridge.config kind) (bridge.send source)

/-- Reads the value that a handle points at. As an object the value is the handle itself, for which
nothing is sent. -/
def read (bridge : Bridge σ) (h : Handle) : Kind → Except BridgeError Value × Bridge σ
  | .object => (.ok (.handle h), bridge)
  | kind => bridge.evaluate h.accessor kind

def getField (bridge : Bridge σ) (h : Handle) (field : String) (kind : Kind) :
    Except BridgeError Value × Bridge σ :=
  match h.child field with
  | .ok target => bridge.read target kind
  | .error e => (.error (.unencodable e), bridge)

/-- Assigns to an attribute. What the host answers does not matter. -/
def setField (bridge : Bridge σ) (h : Handle) (field : String) (v : Value) :
    Except BridgeError Unit × Bridge σ :=
  decoded (fun _ => .ok ()) (bridge.sendPrepared (h.assignmentSource bridge.config field v))

def call (bridge : Bridge σ) (h : Handle) (method : String) (positional : List Value)
    (keyword : List (String × Value)) (returns : Kind) : Except BridgeError Value × Bridge σ :=
  decoded (decode bridge.config returns)
    (bridge.sendPrepared (h.callSource bridge.config method positional keyword))

/-- Calls a method that yields an object. The absence of one is a failure to decode. -/
def construct (bridge : Bridge σ) (h : Handle) (method : String) (positional : List Value)
    (keyword : List (String × Value)) : Except BridgeError Handle × Bridge σ :=
  decoded decodeHandle
    (bridge.sendPrepared (h.callSource bridge.config method positional keyword))

end Bridge

end LiteralBridge
