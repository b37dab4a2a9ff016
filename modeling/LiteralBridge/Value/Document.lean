import LiteralBridge.Json.Render
import LiteralBridge.Json.Read
import LiteralBridge.Literal.Render
import LiteralBridge.Value.Matrix

/-!
# Values as JSON documents

Arrays are lists and objects are tables. What JSON has no form for is approximated on the way out:
a number that is not finite is a string, a handle or a function an object with one member. On the
way in, an integer that only an unsigned word holds is refused, not rounded.
-/

namespace LiteralBridge

/-- Why a text is not a document of values. -/
inductive DocumentError where
  | malformed
  | tooLarge (i : Int)
deriving DecidableEq

def DocumentError.message : DocumentError → String
  | malformed => Json.malformedMessage
  | tooLarge i => "integer " ++ String.ofList (Text.decimalInt i) ++ " is too large"

namespace Value

mutual

def ofJson : Json → Except DocumentError Value
  | .null => .ok .null
  | .bool b => .ok (.boolean b)
  | .number (.integer i _) =>
    if i < 0x8000000000000000 then .ok (.integer i) else .error (.tooLarge i)
  | .number (.float x _) => .ok (.float x)
  | .string s => .ok (.string s)
  | .array items => do
    let vs ← ofJsonAll items
    .ok (.array vs)
  | .object members => do
    let entries ← ofJsonMembers members
    .ok (table entries)

def ofJsonAll : List Json → Except DocumentError (List Value)
  | [] => .ok []
  | j :: rest => do
    let v ← ofJson j
    let vs ← ofJsonAll rest
    .ok (v :: vs)

def ofJsonMembers : List (String × Json) → Except DocumentError (List (String × Value))
  | [] => .ok []
  | (key, j) :: rest => do
    let v ← ofJson j
    let entries ← ofJsonMembers rest
    .ok ((key, v) :: entries)

end

/-- An integer as a document; beyond 64 bits, as the string of its digits. -/
def integerJson (i : Int) : Json :=
  if h : -0x8000000000000000 ≤ i ∧ i < 0x10000000000000000 then .number (.integer i h)
  else .string (String.ofList (Text.decimalInt i))

/-- A float as a document; if it is not finite, as its host text. -/
def floatJson (x : Binary64) : Json :=
  if h : x.isFinite = true then .number (.float x h)
  else .string (String.ofList (Literal.renderFloat x))

mutual

def toJson : Value → Json
  | null | undefined => .null
  | boolean b => .bool b
  | integer i => integerJson i
  | float x => floatJson x
  | string s | enum s => .string s
  | enumSet names => .array (names.names.map .string)
  | array items | tuple items => .array (toJsonAll items)
  | matrix ⟨rows, cols, items⟩ =>
    .array ((Matrix.rowSlices ⟨rows, cols, toJsonAll items⟩).map .array)
  | dict entries => .object (toJsonMembers entries)
  | handle h => .object [("handle", .string h.accessor)]
  | function name => .object [("function", .string name)]

def toJsonAll : List Value → List Json
  | [] => []
  | v :: rest => toJson v :: toJsonAll rest

def toJsonMembers : List (String × Value) → List (String × Json)
  | [] => []
  | (key, v) :: rest => (key, toJson v) :: toJsonMembers rest

end

/-- The value of a text that is a document. -/
def ofDocument (text : String) : Except DocumentError Value :=
  match Json.parse? text with
  | some j => ofJson j
  | none => .error .malformed

end Value

end LiteralBridge
