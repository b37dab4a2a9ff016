import LiteralBridge.Command.Line

/-!
# The program
-/

open LiteralBridge

def readContent (path : String) : IO (Except FileFault ByteArray) := do
  try
    let content ← IO.FS.readBinFile path
    return .ok content
  catch e =>
    match e with
    | .noFileOrDirectory .. => return .error .missing
    | .inappropriateType .. => return .error .directory
    | other => return .error (.other (toString other))

def main (arguments : List String) : IO UInt32 := do
  let program := (← IO.appPath).fileName.getD "literal-bridge"
  let ended ← CommandLine.run readContent program arguments
  (← IO.getStdout).putStr ended.stdout
  (← IO.getStderr).putStr ended.stderr
  return ended.code
