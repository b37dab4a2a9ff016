import LiteralBridge.Literal.Quoted
import LiteralBridge.Text.Cut

/-!
# Reading names

The only names that denote anything are those of constants and the two calls `float(...)` of a
string and `set()` of nothing.
-/

namespace LiteralBridge.Literal

open Text

abbrev skipBlank (cs : List Char) : List Char :=
  trimStart cs

def expect (c : Char) : Reader Unit
  | [] => .error ⟨.wanted c Option.none, []⟩
  | found :: rest =>
    if found = c then .ok ((), rest) else .error ⟨.wanted c (some found), found :: rest⟩

/-- An ASCII letter in lower case; other characters stay as they are. -/
def lowerAscii (c : Char) : Char :=
  if 'A' ≤ c ∧ c ≤ 'Z' then Char.ofNat (c.toNat + 32) else c

/-- The float that an argument of the call `float(...)` names: infinity or no number, with a
sign. -/
def specialFloat? (argument : List Char) : Option Binary64 :=
  let lowered := (trim argument).map lowerAscii
  let (negative, body) := match lowered with
    | '-' :: rest => (true, rest)
    | '+' :: rest => (false, rest)
    | rest => (false, rest)
  if body = "inf".toList ∨ body = "infinity".toList then some (.infinity negative)
  else if body = "nan".toList then some .nan
  else Option.none

/-- Reads the argument list of the call `float(...)`. `start` is the text from the name on, where an
argument without a meaning is reported. -/
def readFloatCall (start : List Char) : Reader Literal := fun cs => do
  let ((), afterOpen) ← expect '(' cs
  let argumentStart := skipBlank afterOpen
  if argumentStart.head?.any fun c => c == '"' || c == '\'' then
    let (argument, afterArgument) ← readString argumentStart
    let ((), after) ← expect ')' (skipBlank afterArgument)
    match specialFloat? argument.toList with
    | some x => .ok (.float x, after)
    | Option.none => .error ⟨.unsupportedFloat argument, start⟩
  else .error ⟨.floatWithoutString, argumentStart⟩

/-- Reads the empty argument list of the call `set()`. -/
def readSetCall : Reader Literal := fun cs => do
  let ((), afterOpen) ← expect '(' cs
  let ((), after) ← expect ')' (skipBlank afterOpen)
  .ok (.set [], after)

def readName : Reader Literal := fun cs =>
  let rest := cs.dropWhile isNameRest
  match String.ofList (cs.takeWhile isNameRest) with
  | "None" => .ok (.none, rest)
  | "True" => .ok (.bool true, rest)
  | "False" => .ok (.bool false, rest)
  | "inf" => .ok (.float (.infinity false), rest)
  | "nan" => .ok (.float .nan, rest)
  | "float" => readFloatCall cs rest
  | "set" => readSetCall rest
  | name => .error ⟨.unknownName name, cs⟩

/-- Reads what follows a minus sign: a number, or a name that denotes a float. `start` is the text
from the sign on. -/
def readNegatedName (start : List Char) : Reader Literal := fun cs => do
  let (literal, after) ← readName cs
  match literal with
  | .float x => .ok (.float x.neg, after)
  | other => .error ⟨.notNegatable other.shape, start⟩

end LiteralBridge.Literal
