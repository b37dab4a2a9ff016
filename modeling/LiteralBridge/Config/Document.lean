import LiteralBridge.Config.Basic
import LiteralBridge.Json.Fields

/-!
# Configuration documents

A JSON document may override any of the settings. Keys that are no setting, or occur twice, are
rejected; so is a document whose settings are invalid.
-/

namespace LiteralBridge

open Json (Reader Symbol readOnce)

/-- Why a configuration could not be loaded. -/
inductive ConfigError where
  | unreadable (fault : FileFault)
  /-- The text is not a document of settings. -/
  | malformed
  | invalid (fault : InvalidConfig)
deriving DecidableEq

def ConfigError.message : ConfigError → String
  | unreadable fault => "failed to read config: " ++ fault.message
  | malformed => "failed to parse config: " ++ Json.malformedMessage
  | invalid fault => "invalid config: " ++ fault.message

namespace Config

/-- The settings that a document gives. -/
structure Given where
  integerRange : Option IntegerRange := none
  maxDepth : Option Nat := none
  faultMarker : Option String := none

/-- The settings given, and the default for the others. -/
def Given.config (given : Given) : Config :=
  let default : Config := {}
  ⟨given.integerRange.getD default.integerRange, given.maxDepth.getD default.maxDepth,
    given.faultMarker.getD default.faultMarker⟩

def rangeOfName? : String → Option IntegerRange
  | "int32" => some .int32
  | "int64" => some .int64
  | _ => none

/-- Reads a range: its name, or an object with its name as the only key and null under it. -/
def readRange : Reader IntegerRange := fun cs =>
  match Json.readString cs with
  | some (name, after) => (rangeOfName? name).map fun range => (range, after)
  | none =>
    Json.readVariant
      (fun name cs => do
        let range ← rangeOfName? name
        let after ← Json.readWord "null".toList (Json.skipSpace cs)
        some (range, after)) cs

/-- Reads a nesting limit: a word of 64 bits. -/
def readDepth : Reader Nat :=
  Json.readNatBelow 0x10000000000000000

def readSetting (given : Given) (key : String) : Reader Given := fun cs =>
  match key with
  | "integer_range" =>
    (readOnce readRange given.integerRange cs).map fun (v, after) =>
      ({ given with integerRange := v }, after)
  | "max_depth" =>
    (readOnce readDepth given.maxDepth cs).map fun (v, after) =>
      ({ given with maxDepth := v }, after)
  | "fault_marker" =>
    (readOnce Json.readString given.faultMarker cs).map fun (v, after) =>
      ({ given with faultMarker := v }, after)
  | _ => none

/-- Reads the next setting of a document that is an array: the first one that is not given yet. -/
def readNextSetting (given : Given) : Reader Given :=
  if given.integerRange.isNone then readSetting given "integer_range"
  else if given.maxDepth.isNone then readSetting given "max_depth"
  else readSetting given "fault_marker"

def readGiven (bound : Nat) : Reader Given := fun cs => do
  let (isObject, body) ← Json.readOpening cs
  if isObject then Json.readContainer '}' (Json.readMember readSetting) bound {} body
  else Json.readContainer ']' readNextSetting bound {} body

/-- The settings in the text of a document. -/
def ofJson (text : String) : Except ConfigError Config :=
  match Json.readWhole readGiven (Json.symbols text) with
  | none => .error .malformed
  | some given =>
    match given.config.check with
    | .error fault => .error (.invalid fault)
    | .ok () => .ok given.config

/-- The settings in the content of a file. -/
def ofFile (content : Except FileFault ByteArray) : Except ConfigError Config :=
  match content with
  | .error fault => .error (.unreadable fault)
  | .ok bytes =>
    match String.fromUTF8? bytes with
    | none => .error (.unreadable .notText)
    | some text => ofJson text

end Config

end LiteralBridge
