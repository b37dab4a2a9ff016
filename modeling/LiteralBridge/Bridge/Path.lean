import LiteralBridge.Encode

/-!
# Paths to objects

An object is reached from another one by attributes, positions and keys. Following a path composes
an accessor; nothing is sent.
-/

namespace LiteralBridge

/-- A step from an object to another. -/
inductive Step where
  | field (name : String)
  | item (position : Int)
  | entry (key : String)
deriving DecidableEq

namespace Handle

def step (h : Handle) : Step → Except EncodeError Handle
  | .field name => h.child name
  | .item position => .ok (h.index position)
  | .entry key => .ok (h.key key)

/-- The object at the end of a path. -/
def follow (h : Handle) : List Step → Except EncodeError Handle
  | [] => .ok h
  | step :: rest => do
    let next ← h.step step
    next.follow rest

end Handle

end LiteralBridge
