import LiteralBridge.Envelope.Basic
import LiteralBridge.Json.Fields

/-!
# Reading envelopes

The records of an envelope may have members that this version does not know, whose values are
skipped. A field must be there, and only once.
-/

namespace LiteralBridge

open Json (Reader Symbol readOnce readMember readContainer)

/-- Skips the value of a member that is not a field. -/
def skipUnknown {σ : Type} (bound : Nat) (state : σ) : Reader σ := fun cs =>
  (Json.skipValue bound cs).map fun after => (state, after)

/-- Reads a record. As an object its members are read by their keys, as an array its fields are read
in order; the array must have them all and nothing else. -/
def readRecord {σ α : Type} (bound : Nat) (start : σ) (member : σ → String → Reader σ)
    (next : σ → Reader σ) (finish : σ → Option α) : Reader α := fun cs => do
  let (isObject, body) ← Json.readOpening cs
  let (state, after) ←
    if isObject then readContainer '}' (readMember member) bound start body
    else readContainer ']' next bound start body
  let a ← finish state
  some (a, after)

def readMessageId : Reader MessageId := fun cs => do
  let (text, after) ← Json.readString cs
  let id ← MessageId.ofText? text
  some (id, after)

/-! ## Versions -/

/-- Reads a number of a version: a word of 32 bits. -/
def readVersionNumber : Reader UInt32 := fun cs =>
  (Json.readNatBelow 0x100000000 cs).map fun (n, after) => (UInt32.ofNat n, after)

/-- The fields of a version that are read so far: major and minor number. -/
abbrev VersionFields := Option UInt32 × Option UInt32

def readVersionMember (bound : Nat) (fields : VersionFields) (key : String) :
    Reader VersionFields := fun cs =>
  match key with
  | "major" => (readOnce readVersionNumber fields.1 cs).map fun (v, after) => ((v, fields.2), after)
  | "minor" => (readOnce readVersionNumber fields.2 cs).map fun (v, after) => ((fields.1, v), after)
  | _ => skipUnknown bound fields cs

def readNextVersionNumber (bound : Nat) (fields : VersionFields) : Reader VersionFields :=
  readVersionMember bound fields (if fields.1.isNone then "major" else "minor")

def readVersion (bound : Nat) : Reader SchemaVersion :=
  readRecord bound (none, none) (readVersionMember bound) (readNextVersionNumber bound)
    fun (major, minor) => return ⟨← major, ← minor⟩

/-! ## Faults and outcomes -/

/-- The fields of a fault that are read so far: kind, message and request. -/
abbrev FaultFields := Option String × Option String × Option String

def readFaultMember (bound : Nat) (fields : FaultFields) (key : String) : Reader FaultFields :=
  fun cs =>
  let (kind, message, request) := fields
  match key with
  | "kind" =>
    (readOnce Json.readString kind cs).map fun (v, after) => ((v, message, request), after)
  | "message" =>
    (readOnce Json.readString message cs).map fun (v, after) => ((kind, v, request), after)
  | "request" =>
    (readOnce Json.readString request cs).map fun (v, after) => ((kind, message, v), after)
  | _ => skipUnknown bound fields cs

def readNextFaultField (bound : Nat) (fields : FaultFields) : Reader FaultFields :=
  readFaultMember bound fields
    (if fields.1.isNone then "kind" else if fields.2.1.isNone then "message" else "request")

def readFault (bound : Nat) : Reader RemoteFault :=
  readRecord bound (none, none, none) (readFaultMember bound) (readNextFaultField bound)
    fun (kind, message, request) => return ⟨← kind, ← message, ← request⟩

/-- Reads an outcome: an object with a single key that says what it is. -/
def readOutcome (bound : Nat) : Reader Outcome :=
  Json.readVariant fun key cs =>
    match key with
    | "Value" => (Json.readString cs).map fun (text, after) => (.value text, after)
    | "Fault" => (readFault bound cs).map fun (fault, after) => (.fault fault, after)
    | _ => none

/-! ## Requests and responses -/

/-- The fields of an envelope that are read so far: its identifier, its version and its content. -/
abbrev EnvelopeFields (α : Type) := Option MessageId × Option SchemaVersion × Option α

/-- Reads the member of an envelope under a key. The keys of identifier and content depend on the
direction. -/
def readEnvelopeMember {α : Type} (idKey contentKey : String) (content : Reader α) (bound : Nat)
    (fields : EnvelopeFields α) (key : String) : Reader (EnvelopeFields α) := fun cs =>
  let (id, version, a) := fields
  if key = idKey then
    (readOnce readMessageId id cs).map fun (v, after) => ((v, version, a), after)
  else if key = "version" then
    (readOnce (readVersion bound) version cs).map fun (v, after) => ((id, v, a), after)
  else if key = contentKey then
    (readOnce content a cs).map fun (v, after) => ((id, version, v), after)
  else skipUnknown bound fields cs

def readNextEnvelopeField {α : Type} (idKey contentKey : String) (content : Reader α) (bound : Nat)
    (fields : EnvelopeFields α) : Reader (EnvelopeFields α) :=
  readEnvelopeMember idKey contentKey content bound fields
    (if fields.1.isNone then idKey else if fields.2.1.isNone then "version" else contentKey)

def readEnvelope {α : Type} (idKey contentKey : String) (content : Reader α) (bound : Nat) :
    Reader (MessageId × SchemaVersion × α) :=
  readRecord bound (none, none, none) (readEnvelopeMember idKey contentKey content bound)
    (readNextEnvelopeField idKey contentKey content bound)
    fun (id, version, a) => return (← id, ← version, ← a)

def ExecutionRequest.ofBytes? (bytes : ByteArray) : Option ExecutionRequest :=
  (Json.readWhole (readEnvelope "id" "source" Json.readString)
    (Json.symbolsOfBytes bytes)).map fun (id, version, source) => ⟨id, version, source⟩

def ExecutionResponse.ofBytes? (bytes : ByteArray) : Option ExecutionResponse :=
  (Json.readWhole (fun bound => readEnvelope "correlation_id" "outcome" (readOutcome bound) bound)
    (Json.symbolsOfBytes bytes)).map fun (id, version, outcome) => ⟨id, version, outcome⟩

end LiteralBridge
