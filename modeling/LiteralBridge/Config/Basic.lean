import LiteralBridge.Text.Alphanumeric
import LiteralBridge.Text.Diagnostic

/-!
# Configuration

The settings shared by encoding, decoding and channels, and what makes them valid. A fault marker
is valid if no result can begin with it.
-/

namespace LiteralBridge

/-- The integers that may cross. Others are rejected, never wrapped. -/
inductive IntegerRange where
  | int32
  | int64
deriving DecidableEq

namespace IntegerRange

def min : IntegerRange → Int
  | int32 => -0x80000000
  | int64 => -0x8000000000000000

def max : IntegerRange → Int
  | int32 => 0x7fffffff
  | int64 => 0x7fffffffffffffff

def contains (range : IntegerRange) (i : Int) : Bool :=
  range.min ≤ i && i ≤ range.max

def name : IntegerRange → String
  | int32 => "int32"
  | int64 => "int64"

/-- The integers of every range have 64 bits. -/
theorem word_of_contains {range : IntegerRange} {i : Int} (h : range.contains i = true) :
    -0x8000000000000000 ≤ i ∧ i < 0x8000000000000000 := by
  have hb : range.min ≤ i ∧ i ≤ range.max := by simpa [contains] using h
  cases range with
  | int32 =>
    change -0x80000000 ≤ i ∧ i ≤ 0x7fffffff at hb
    omega
  | int64 =>
    change -0x8000000000000000 ≤ i ∧ i ≤ 0x7fffffffffffffff at hb
    omega

end IntegerRange

/-- What is wrong with settings. -/
inductive InvalidConfig where
  /-- No nesting would be allowed at all. -/
  | zeroDepth
  | emptyMarker
  /-- A result could begin with the marker. -/
  | ambiguousMarker (marker : String)
deriving DecidableEq

def InvalidConfig.message : InvalidConfig → String
  | zeroDepth => "max_depth must be at least 1"
  | emptyMarker => "fault_marker must not be empty"
  | ambiguousMarker marker =>
    "fault_marker " ++ Text.quoted marker ++ " can begin a host expression"

/-- Why the text of a configuration file could not be had. -/
inductive FileFault where
  | missing
  | directory
  | notText
  /-- Any other failure, in the words of the system. -/
  | other (cause : String)
deriving DecidableEq

def FileFault.message : FileFault → String
  | missing => "No such file or directory (os error 2)"
  | directory => "Is a directory (os error 21)"
  | notText => "stream did not contain valid UTF-8"
  | other cause => cause

/-- Settings of a bridge. -/
structure Config where
  /-- The integers that may cross. -/
  integerRange : IntegerRange := .int32
  /-- How deep containers may nest. -/
  maxDepth : Nat := 64
  /-- What a line that reports a fault begins with. -/
  faultMarker : String := "!"
deriving DecidableEq

/-- A character that a host expression can begin with, other than white space and letters and
digits. -/
def beginsExpression (c : Char) : Bool :=
  c == '_' || c == '"' || c == '\'' || c == '[' || c == '(' || c == '{' || c == '-' || c == '+' ||
    c == '.'

/-- A marker can be told apart from every result if its first character begins none. -/
def checkMarker (marker : String) : Except InvalidConfig Unit :=
  match marker.toList with
  | [] => .error .emptyMarker
  | c :: _ =>
    if Text.isAlphanumeric c || Text.isBlank c || beginsExpression c then
      .error (.ambiguousMarker marker)
    else .ok ()

/-- Settings are valid if they allow some nesting and have a valid marker. -/
def Config.check (config : Config) : Except InvalidConfig Unit :=
  if config.maxDepth = 0 then .error .zeroDepth else checkMarker config.faultMarker

end LiteralBridge
