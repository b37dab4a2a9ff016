import LiteralBridge.Envelope.Basic
import LiteralBridge.Json.Read

/-!
# Failures of an exchange of envelopes
-/

namespace LiteralBridge

/-- Why an exchange of envelopes failed. -/
inductive ExchangeError where
  /-- The bytes of a frame are no envelope. -/
  | malformed
  /-- The frame could not be moved, in the words of the transport. -/
  | transport (message : String)
  /-- The response answers another request. -/
  | foreign (expected actual : MessageId)
  | incompatible (expected actual : SchemaVersion)
deriving DecidableEq

def ExchangeError.message : ExchangeError → String
  | malformed => "Codec error: " ++ Json.malformedMessage
  | transport message => "Transport error: " ++ message
  | foreign expected actual =>
    "Response " ++ actual.display ++ " does not answer request " ++ expected.display
  | incompatible expected actual =>
    "Incompatible schema " ++ actual.display ++ " (expected " ++ expected.display ++ ")"

/-- An envelope is understood if its version is compatible with the current one. -/
def checkVersion (actual : SchemaVersion) : Except ExchangeError Unit :=
  if SchemaVersion.current.isCompatibleWith actual then .ok ()
  else .error (.incompatible .current actual)

end LiteralBridge
