import LiteralBridge.Binary64.Basic

/-!
# JSON documents

A number is an integer of 64 bits, with or without a sign, or a finite float. The members of an
object keep the order in which they are listed; `Json.Ordered` says that they are listed in key
order.
-/

namespace LiteralBridge

inductive JsonNumber where
  /-- An integer that a signed or an unsigned word of 64 bits holds. -/
  | integer (i : Int) (fits : -0x8000000000000000 ≤ i ∧ i < 0x10000000000000000)
  | float (x : Binary64) (finite : x.isFinite = true)
deriving DecidableEq

inductive Json where
  | null
  | bool (b : Bool)
  | number (n : JsonNumber)
  | string (s : String)
  | array (items : List Json)
  | object (members : List (String × Json))

namespace Json

/-- The number of a word of 32 bits. -/
def ofWord (n : UInt32) : Json :=
  number (.integer n.toNat (by have := n.toNat_lt; omega))

mutual

/-- All objects in a document list their members in increasing key order. -/
def Ordered : Json → Prop
  | array items => OrderedItems items
  | object members => members.Pairwise (fun a b => a.1 < b.1) ∧ OrderedMembers members
  | _ => True

def OrderedItems : List Json → Prop
  | [] => True
  | j :: rest => j.Ordered ∧ OrderedItems rest

def OrderedMembers : List (String × Json) → Prop
  | [] => True
  | (_, j) :: rest => j.Ordered ∧ OrderedMembers rest

end

end Json

end LiteralBridge
