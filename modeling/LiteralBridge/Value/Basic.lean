import LiteralBridge.Binary64.Basic
import LiteralBridge.Handle
import LiteralBridge.Value.Entries
import LiteralBridge.Value.NameSet

/-!
# Values

The values that cross to the host and back. Integers are unbounded here; which of them may cross is
a matter of configuration. Tables list their entries in key order; `Value.Ordered` says that a value
does so throughout, and `Value.table` builds such a table.
-/

namespace LiteralBridge

/-- A rectangular array, row after row. The shape is checked only where the array is written. -/
structure Matrix (α : Type u) where
  /-- The number of rows. -/
  rows : Nat
  /-- The number of columns. -/
  cols : Nat
  /-- The items of the first row, then those of the second, and so on. -/
  items : List α
deriving DecidableEq

/-- A value on the calling side. -/
inductive Value where
  | null
  /-- A value that was never given; it is written like `null`. -/
  | undefined
  | boolean (b : Bool)
  | integer (i : Int)
  | float (x : Binary64)
  | string (s : String)
  /-- A member of a host enumeration, sent as its name. -/
  | enum (name : String)
  /-- A set of members of a host enumeration. -/
  | enumSet (names : NameSet)
  /-- A list whose items have one kind, apart from nulls. -/
  | array (items : List Value)
  | matrix (m : Matrix Value)
  | tuple (items : List Value)
  | dict (entries : List (String × Value))
  /-- An object that stays in the host. -/
  | handle (h : Handle)
  /-- A callback of the calling side; it can only be rejected. -/
  | function (name : String)

/-- The constructors of `Value`, without what they hold. -/
inductive Tag where
  | null | undefined | boolean | integer | float | string | enum | enumSet | array | matrix | tuple
  | dict | handle | function
deriving DecidableEq

def Tag.name : Tag → String
  | null => "null"
  | undefined => "undefined"
  | boolean => "bool"
  | integer => "int"
  | float => "float"
  | string => "str"
  | enum => "enum"
  | enumSet => "enumset"
  | array => "list"
  | matrix => "matrix"
  | tuple => "tuple"
  | dict => "dict"
  | handle => "object"
  | function => "function"

namespace Value

def tag : Value → Tag
  | null => .null
  | undefined => .undefined
  | boolean _ => .boolean
  | integer _ => .integer
  | float _ => .float
  | string _ => .string
  | enum _ => .enum
  | enumSet _ => .enumSet
  | array _ => .array
  | matrix _ => .matrix
  | tuple _ => .tuple
  | dict _ => .dict
  | handle _ => .handle
  | function _ => .function

def isNull : Value → Bool
  | null | undefined => true
  | _ => false

def asBool? : Value → Option Bool
  | boolean b => some b
  | _ => none

def asInteger? : Value → Option Int
  | integer i => some i
  | _ => none

def asFloat? : Value → Option Binary64
  | float x => some x
  | _ => none

def asText? : Value → Option String
  | string s | enum s => some s
  | _ => none

def asHandle? : Value → Option Handle
  | handle h => some h
  | _ => none

/-- The table of a list of entries, in which the last value of a key counts. -/
def table (entries : List (String × Value)) : Value :=
  dict (Entries.ofList entries)

mutual

/-- All tables in a value list their keys in increasing order. -/
def Ordered : Value → Prop
  | array items | tuple items => OrderedItems items
  | matrix ⟨_, _, items⟩ => OrderedItems items
  | dict entries => Entries.Sorted entries ∧ OrderedEntries entries
  | _ => True

def OrderedItems : List Value → Prop
  | [] => True
  | v :: rest => v.Ordered ∧ OrderedItems rest

def OrderedEntries : List (String × Value) → Prop
  | [] => True
  | (_, v) :: rest => v.Ordered ∧ OrderedEntries rest

end

mutual

/-- Equality of values. Floats are compared as numbers, so a value that holds NaN is not equal to
itself, and the zeros are equal. -/
def numEq : Value → Value → Bool
  | null, null | undefined, undefined => true
  | boolean a, boolean b => a == b
  | integer a, integer b => a == b
  | float a, float b => a.numEq b
  | string a, string b | enum a, enum b | function a, function b => a == b
  | enumSet a, enumSet b => a == b
  | array a, array b | tuple a, tuple b => numEqItems a b
  | matrix ⟨r, c, a⟩, matrix ⟨r', c', b⟩ => r == r' && c == c' && numEqItems a b
  | dict a, dict b => numEqEntries a b
  | handle a, handle b => a == b
  | _, _ => false

def numEqItems : List Value → List Value → Bool
  | [], [] => true
  | v :: vs, w :: ws => v.numEq w && numEqItems vs ws
  | _, _ => false

def numEqEntries : List (String × Value) → List (String × Value) → Bool
  | [], [] => true
  | (k, v) :: vs, (l, w) :: ws => k == l && v.numEq w && numEqEntries vs ws
  | _, _ => false

end

end Value

end LiteralBridge
