import LiteralBridge.Binary64.Basic

/-!
# Host literals

A literal as the host writes it, before it is checked against a kind. Sets and tables keep their
items as they were written, in order and with repetitions.
-/

namespace LiteralBridge

/-- A constant of the host language. -/
inductive Literal where
  | none
  | bool (b : Bool)
  /-- A 128-bit integer: wider than any value that may cross, so that one out of range is
  reported. -/
  | int (i : Int)
  | float (x : Binary64)
  | str (s : String)
  | list (items : List Literal)
  | tuple (items : List Literal)
  | set (items : List Literal)
  | dict (entries : List (Literal × Literal))

namespace Literal

/-- The types of literals. -/
inductive Shape where
  | none | bool | int | float | str | list | tuple | set | dict
deriving DecidableEq

/-- The host's name of a type. -/
def Shape.name : Shape → String
  | none => "None"
  | bool => "bool"
  | int => "int"
  | float => "float"
  | str => "str"
  | list => "list"
  | tuple => "tuple"
  | set => "set"
  | dict => "dict"

def shape : Literal → Shape
  | none => .none
  | bool _ => .bool
  | int _ => .int
  | float _ => .float
  | str _ => .str
  | list _ => .list
  | tuple _ => .tuple
  | set _ => .set
  | dict _ => .dict

/-- The integers of a literal: 128 bits with a sign. -/
def FitsInt (i : Int) : Prop :=
  -0x80000000000000000000000000000000 ≤ i ∧ i < 0x80000000000000000000000000000000

instance (i : Int) : Decidable (FitsInt i) :=
  inferInstanceAs (Decidable (_ ∧ _))

end Literal

end LiteralBridge
