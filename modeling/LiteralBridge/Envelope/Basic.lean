import LiteralBridge.Json.Render
import LiteralBridge.MessageId
import LiteralBridge.Text.Diagnostic

/-!
# Envelopes

A request carries a source text to the host, and the response carries what became of it back under
the same identifier. Envelopes have a schema version; a change of the major number breaks
compatibility.
-/

namespace LiteralBridge

/-- The host evaluated a request and reported an error. -/
@[ext]
structure RemoteFault where
  /-- The class of the error; empty if the host named none. -/
  kind : String
  message : String
  /-- The source of the request that faulted; empty where it is not attributed. -/
  request : String := ""
deriving DecidableEq

namespace RemoteFault

/-- The fault as that of a request. -/
def withRequest (fault : RemoteFault) (source : String) : RemoteFault :=
  { fault with request := source }

@[simp] theorem request_withRequest (fault : RemoteFault) (source : String) :
    (fault.withRequest source).request = source :=
  rfl

@[simp] theorem kind_withRequest (fault : RemoteFault) (source : String) :
    (fault.withRequest source).kind = fault.kind :=
  rfl

@[simp] theorem message_withRequest (fault : RemoteFault) (source : String) :
    (fault.withRequest source).message = fault.message :=
  rfl

def display (fault : RemoteFault) : String :=
  "remote fault (" ++ fault.kind ++ ") evaluating " ++ Text.quoted fault.request ++ ": " ++
    fault.message

end RemoteFault

/-- The version of the schema of an envelope. -/
structure SchemaVersion where
  major : UInt32
  minor : UInt32
deriving DecidableEq

namespace SchemaVersion

/-- The version that this library writes. -/
def current : SchemaVersion := ⟨1, 0⟩

/-- Versions with one major number understand each other. -/
def isCompatibleWith (v w : SchemaVersion) : Bool :=
  v.major == w.major

def display (v : SchemaVersion) : String :=
  "v" ++ toString v.major.toNat ++ "." ++ toString v.minor.toNat

end SchemaVersion

/-- A source text to evaluate. -/
structure ExecutionRequest where
  id : MessageId
  version : SchemaVersion
  source : String
deriving DecidableEq

/-- What became of a request. -/
inductive Outcome where
  /-- The literal text of the result. -/
  | value (text : String)
  | fault (fault : RemoteFault)
deriving DecidableEq

/-- The answer to a request. -/
structure ExecutionResponse where
  /-- The identifier of the request. -/
  correlationId : MessageId
  version : SchemaVersion
  outcome : Outcome
deriving DecidableEq

def Outcome.ofResult : Except RemoteFault String → Outcome
  | .ok text => value text
  | .error f => fault f

def Outcome.result : Outcome → Except RemoteFault String
  | value text => .ok text
  | fault f => .error f

@[simp] theorem Outcome.ofResult_ok (text : String) : ofResult (.ok text) = value text :=
  rfl

@[simp] theorem Outcome.ofResult_error (f : RemoteFault) : ofResult (.error f) = fault f :=
  rfl

@[simp] theorem Outcome.result_ofResult (result : Except RemoteFault String) :
    (ofResult result).result = result := by
  cases result with
  | ok text => rw [ofResult_ok, result]
  | error f => rw [ofResult_error, result]

def ExecutionRequest.ofSource (id : MessageId) (source : String) : ExecutionRequest :=
  ⟨id, .current, source⟩

def ExecutionResponse.ofResult (id : MessageId) (result : Except RemoteFault String) :
    ExecutionResponse :=
  ⟨id, .current, .ofResult result⟩

/-! ## Envelopes on the wire -/

/-- A way to write something as bytes that can be read back. -/
structure Codec (α : Type) where
  write : α → ByteArray
  read? : ByteArray → Option α
  read?_write (a : α) : read? (write a) = some a

attribute [simp] Codec.read?_write

/-- The codecs of envelopes in both directions. -/
structure Wire where
  request : Codec ExecutionRequest
  response : Codec ExecutionResponse

/-! ## Envelopes as documents -/

def RemoteFault.toJson (fault : RemoteFault) : Json :=
  .object [("kind", .string fault.kind), ("message", .string fault.message),
    ("request", .string fault.request)]

def SchemaVersion.toJson (v : SchemaVersion) : Json :=
  .object [("major", .ofWord v.major), ("minor", .ofWord v.minor)]

def ExecutionRequest.toJson (request : ExecutionRequest) : Json :=
  .object [("id", .string request.id.text), ("version", request.version.toJson),
    ("source", .string request.source)]

/-- An outcome as a document with one key. -/
def Outcome.toJson : Outcome → Json
  | value text => .object [("Value", .string text)]
  | fault f => .object [("Fault", f.toJson)]

def ExecutionResponse.toJson (response : ExecutionResponse) : Json :=
  .object [("correlation_id", .string response.correlationId.text),
    ("version", response.version.toJson), ("outcome", response.outcome.toJson)]

def ExecutionRequest.toBytes (request : ExecutionRequest) : ByteArray :=
  request.toJson.text.toUTF8

def ExecutionResponse.toBytes (response : ExecutionResponse) : ByteArray :=
  response.toJson.text.toUTF8

end LiteralBridge
