import LiteralBridge.Text.Class
import LiteralBridge.Text.Numeral

/-!
# Handles of remote objects

An object that lives in the host is known by its accessor, a host expression that yields it. Nothing
is cached behind a handle: two handles are equal exactly if their accessors are.
-/

namespace LiteralBridge

/-- A reference to an object in the host. -/
structure Handle where
  /-- The host expression that yields the object. -/
  accessor : String
deriving DecidableEq

namespace Handle

def display (h : Handle) : String :=
  "Remote(" ++ h.accessor ++ ")"

/-- The attribute `field` of the object. Only an identifier can name one, so a field name cannot
change the structure of the expression. -/
def child? (h : Handle) (field : String) : Option Handle :=
  if Text.isIdentifier field then some ⟨h.accessor ++ "." ++ field⟩ else none

/-- The item of the object under a key given as host text. -/
def subscript (h : Handle) (key : String) : Handle :=
  ⟨h.accessor ++ "[" ++ key ++ "]"⟩

def index (h : Handle) (i : Int) : Handle :=
  h.subscript (String.ofList (Text.decimalInt i))

theorem child?_eq_some_iff {h c : Handle} {field : String} :
    h.child? field = some c ↔
      Text.isIdentifier field = true ∧ c = ⟨h.accessor ++ "." ++ field⟩ := by
  by_cases hf : Text.isIdentifier field = true
  · simp [child?, hf, eq_comm (a := c)]
  · simp [child?, hf]

end Handle

end LiteralBridge
