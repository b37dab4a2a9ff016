import LiteralBridge.Config.Document
import LiteralBridge.Decode
import LiteralBridge.Encode
import LiteralBridge.Value.Document

/-!
# Commands

One command encodes a JSON document as host text, the other decodes host text into a JSON document.
Neither contacts a host.
-/

namespace LiteralBridge

/-- An argument that a command cannot do without. -/
inductive Argument where
  | command
  | document
  | kind
  | hostText
deriving DecidableEq

/-- An argument as diagnostics name it. -/
def Argument.name : Argument → String
  | command => "command (encode, decode)"
  | document => "JSON value"
  | kind => "kind"
  | hostText => "host text"

/-- Why a command was not carried out. -/
inductive CommandError where
  | missing (argument : Argument)
  | unknownCommand (name : String)
  | unknownKind (name : String)
  | invalidInput (e : DocumentError)
  | config (e : ConfigError)
  | unencodable (e : EncodeError)
  | undecodable (e : DecodeError)

def CommandError.message : CommandError → String
  | missing argument => "Missing argument: " ++ argument.name
  | unknownCommand name => "Unknown command: " ++ name
  | unknownKind name => "Unknown kind: " ++ name
  | invalidInput e => "Invalid input: " ++ e.message
  | config e => e.message
  | unencodable e => e.message
  | undecodable e => e.message

inductive Command where
  | encode (document : Json)
  | decode (kind : Kind) (text : String)

/-- Settings given on the command line. -/
structure Overrides where
  int64 : Bool := false
  maxDepth : Option Nat := none
deriving DecidableEq

namespace Overrides

/-- The settings with those given on the command line in place of others. -/
def apply (overrides : Overrides) (config : Config) : Config :=
  { config with
    integerRange := if overrides.int64 then .int64 else config.integerRange
    maxDepth := overrides.maxDepth.getD config.maxDepth }

/-- The settings that count: those of the file, if there is one, or else the defaults, with those
given on the command line in their place. The file must be valid by itself. -/
def resolve (overrides : Overrides) (file? : Option (Except FileFault ByteArray)) :
    Except ConfigError Config := do
  let given ← match file? with
    | some content => Config.ofFile content
    | none => .ok {}
  let config := overrides.apply given
  match config.check with
  | .ok () => .ok config
  | .error fault => .error (.invalid fault)

end Overrides

namespace Command

/-- The command that arguments spell. What follows the last argument it needs is ignored. -/
def ofArguments : List String → Except CommandError Command
  | [] => .error (.missing .command)
  | "encode" :: arguments =>
    match arguments with
    | [] => .error (.missing .document)
    | text :: _ =>
      match Json.parse? text with
      | some document => .ok (.encode document)
      | none => .error (.invalidInput .malformed)
  | "decode" :: arguments =>
    match arguments with
    | [] => .error (.missing .kind)
    | name :: arguments =>
      match Kind.ofName? name, arguments with
      | none, _ => .error (.unknownKind name)
      | some _, [] => .error (.missing .hostText)
      | some kind, text :: _ => .ok (.decode kind text)
  | name :: _ => .error (.unknownCommand name)

/-- The text that a command prints. -/
def run (config : Config) : Command → Except CommandError String
  | .encode document =>
    match Value.ofJson document with
    | .error e => .error (.invalidInput e)
    | .ok v => (v.encode config).mapError .unencodable
  | .decode kind text =>
    match LiteralBridge.decode config kind text with
    | .error e => .error (.undecodable e)
    | .ok v => .ok v.toJson.text

/-- What the command that arguments spell prints, or the first thing that is wrong: with the
arguments, with the settings, or with the input. -/
def execute (overrides : Overrides) (file? : Option (Except FileFault ByteArray))
    (arguments : List String) : Except CommandError String := do
  let command ← ofArguments arguments
  let config ← (overrides.resolve file?).mapError .config
  command.run config

end Command

end LiteralBridge
