import LiteralBridge.Envelope.Basic
import LiteralBridge.Framing.Line
import LiteralBridge.Text.Alphanumeric

/-!
# Response lines

A response is the line of a result, or of a fault behind the marker. A fault names its class before
a colon, if it has one.
-/

namespace LiteralBridge.Framing

open Text

/-- The characters of the name of a class of errors. -/
def isClassChar (c : Char) : Bool :=
  isAlphanumeric c || c == '_' || c == '.'

/-- The name of a class of errors. -/
def isClassName (cs : List Char) : Bool :=
  !cs.isEmpty && cs.all isClassChar

/-- A fault without its marker. -/
def faultBody (fault : RemoteFault) : String :=
  if fault.kind.isEmpty then fault.message else fault.kind ++ ": " ++ fault.message

def frameResponse (marker : String) : Except RemoteFault String → String
  | .ok text => frame text
  | .error fault => frame (marker ++ faultBody fault)

/-- The fault in what follows a marker. The part before the first colon is its class if it is the
name of one; otherwise the whole is the message. -/
def readFaultBody (body : List Char) : RemoteFault :=
  match splitOnce [':'] body with
  | some (before, after) =>
    let kind := trim before
    if isClassName kind then ⟨String.ofList kind, String.ofList (trimStart after), ""⟩
    else ⟨"", String.ofList body, ""⟩
  | none => ⟨"", String.ofList body, ""⟩

/-- The response in an unframed line: a fault if it begins with the marker, else a result. -/
def readResponse (marker text : String) : Except RemoteFault String :=
  match after? marker.toList text.toList with
  | some body => .error (readFaultBody body)
  | none => .ok text

/-- The response in a line without its terminator. -/
def parseResponse (marker line : String) : Except FramingError (Except RemoteFault String) := do
  let text ← unframe line
  .ok (readResponse marker text)

end LiteralBridge.Framing
