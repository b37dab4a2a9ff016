import LiteralBridge.Command.Basic

/-!
# The command line

Options come first; from the first argument on that is none, everything belongs to the command, so
that host text such as `-1` is not taken for an option.
-/

namespace LiteralBridge.CommandLine

open Text

/-- What is wrong with the options. -/
inductive OptionError where
  | missingValue (option : String)
  | invalidDepth (text : String)
deriving DecidableEq

def OptionError.message : OptionError → String
  | missingValue option => "Missing value for " ++ option
  | invalidDepth text => "Invalid max-depth value: " ++ text

/-- The options and the command behind them. -/
structure Request where
  configPath : Option String := none
  overrides : Overrides := {}
  command : List String := []
deriving DecidableEq

/-- What the arguments ask for. -/
inductive Demand where
  | help
  | run (request : Request)
deriving DecidableEq

/-- A whole number of at most 64 bits, with or without a plus sign. -/
def readDepth? (text : String) : Option Nat :=
  let digits := match text.toList with
    | '+' :: rest => rest
    | cs => cs
  if digits.isEmpty || !digits.all Char.isDigit then none
  else
    let n := ofDecimal digits
    if n < 0x10000000000000000 then some n else none

/-- Reads options behind those that are already known. The last of several for one setting counts,
and a demand for help ends the reading. -/
def readOptions (known : Request) : List String → Except OptionError Demand
  | [] => .ok (.run known)
  | argument :: rest =>
    if argument = "--config" ∨ argument = "-c" then
      match rest with
      | [] => .error (.missingValue "--config")
      | path :: rest => readOptions { known with configPath := some path } rest
    else if argument = "--int64" then
      readOptions { known with overrides := { known.overrides with int64 := true } } rest
    else if argument = "--max-depth" then
      match rest with
      | [] => .error (.missingValue "--max-depth")
      | text :: rest =>
        match readDepth? text with
        | none => .error (.invalidDepth text)
        | some depth =>
          readOptions { known with overrides := { known.overrides with maxDepth := some depth } }
            rest
    else if argument = "--help" ∨ argument = "-h" then .ok .help
    else .ok (.run { known with command := argument :: rest })

def usage (program : String) : String :=
  "Usage: " ++ program ++ " [OPTIONS] <COMMAND>\n" ++
  "\n" ++
  "Commands:\n" ++
  "  encode <JSON>            Print the host literal for a JSON value\n" ++
  "  decode <KIND> <TEXT>     Decode host text and print it as JSON\n" ++
  "                           KIND: any, null, bool, int, float, str,\n" ++
  "                           enum, enumset, list, dict, object\n" ++
  "\n" ++
  "Options:\n" ++
  "  -c, --config <FILE>      JSON config file\n" ++
  "  --int64                  Accept 64-bit integers (default: 32-bit)\n" ++
  "  --max-depth <N>          Maximum container nesting\n" ++
  "  -h, --help               Show this help message\n" ++
  "\n" ++
  "Examples:\n" ++
  "  " ++ program ++ " encode '\x7b\"name\": \"Cube\", \"size\": [1, 2]\x7d'\n" ++
  "  " ++ program ++ " --int64 decode int 4294967296\n"

/-- How a run of the program ends. -/
structure Exit where
  code : UInt32
  stdout : String
  stderr : String
deriving DecidableEq

namespace Exit

/-- The end of a run that printed a line. -/
def printed (line : String) : Exit :=
  ⟨0, line ++ "\n", ""⟩

/-- The end of a run with a diagnosis. -/
def failed (code : UInt32) (diagnosis : String) : Exit :=
  ⟨code, "", diagnosis ++ "\n"⟩

/-- The end of a run whose arguments made no sense. -/
def misused (program message : String) : Exit :=
  ⟨1, "", "Error: " ++ message ++ "\n" ++ usage program⟩

/-- The end of a run that showed how the program is used. -/
def helped (program : String) : Exit :=
  ⟨0, "", usage program⟩

end Exit

/-- Runs the program. Files are read by `load`, and only after the command makes sense. -/
def run {m : Type → Type} [Monad m] (load : String → m (Except FileFault ByteArray))
    (program : String) (arguments : List String) : m Exit :=
  match readOptions {} arguments with
  | .error e => pure (.misused program e.message)
  | .ok .help => pure (.helped program)
  | .ok (.run request) =>
    match Command.ofArguments request.command with
    | .error e => pure (.misused program e.message)
    | .ok command => do
      let file? ← match request.configPath with
        | some path => some <$> load path
        | none => pure none
      match request.overrides.resolve file? with
      | .error e => pure (.failed 1 ("Configuration error: " ++ e.message))
      | .ok config =>
        match command.run config with
        | .error e => pure (.failed 2 ("Error: " ++ e.message))
        | .ok line => pure (.printed line)

end LiteralBridge.CommandLine
