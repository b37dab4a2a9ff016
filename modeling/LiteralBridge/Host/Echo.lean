import LiteralBridge.Channel.Basic
import LiteralBridge.Literal.Parse
import LiteralBridge.Literal.Render

/-!
# A host that echoes literals

The host answers a literal with its canonical form and remembers assignments of literals. A request
is tried in order as something bound, as a literal, and as an assignment; anything else is an
undefined name.
-/

namespace LiteralBridge

open Text

/-- The state of an echoing host. -/
structure EchoHost where
  /-- The bindings, the latest first; of several for one source the first counts. -/
  bindings : List (String × String) := []
  /-- The requests so far, in order. -/
  requests : List String := []

namespace EchoHost

/-- How deep the literals of the host may nest. -/
def depthLimit : Nat := 64

/-- The text that a source is bound to. -/
def binding? (host : EchoHost) (source : String) : Option String :=
  host.bindings.lookup source

def bind (host : EchoHost) (source response : String) : EchoHost :=
  { host with
    bindings := (source, response) :: host.bindings.filter fun entry => entry.1 != source }

/-- The target and the value of an assignment: what stands before and after the first sign for it. A
target begins like a path. -/
def splitAssignment? (source : String) : Option (String × String) :=
  match splitOnce " = ".toList source.toList with
  | none => none
  | some (before, after) =>
    let target := trim before
    if target.head?.any isNameStart then
      some (String.ofList target, String.ofList (trim after))
    else none

/-- The fault for a source that denotes nothing. -/
def undefinedName (source : String) : RemoteFault :=
  ⟨"NameError", "name '" ++ source ++ "' is not defined", ""⟩

@[simp] theorem kind_undefinedName (source : String) : (undefinedName source).kind = "NameError" :=
  rfl

@[simp] theorem message_undefinedName (source : String) :
    (undefinedName source).message = "name '" ++ source ++ "' is not defined" :=
  rfl

/-- What a source denotes, and the binding that it makes, if any. -/
def answer (host : EchoHost) (source : String) :
    Except RemoteFault String × Option (String × String) :=
  match host.binding? source with
  | some text => (.ok text, none)
  | none =>
    match Literal.parse depthLimit source with
    | .ok literal => (.ok literal.source, none)
    | .error _ =>
      match splitAssignment? source with
      | none => (.error (undefinedName source), none)
      | some (target, value) =>
        match Literal.parse depthLimit value with
        | .error e => (.error ⟨"SyntaxError", e.message, ""⟩, none)
        | .ok literal => (.ok "None", some (target, literal.source))

instance : Evaluator EchoHost where
  evaluate host source :=
    let (result, made) := host.answer source
    let host := { host with requests := host.requests ++ [source] }
    match made with
    | none => (result, host)
    | some (target, text) => (result, host.bind target text)

instance : Channel EchoHost where
  execute host source :=
    let (result, host) := Evaluator.evaluate host source
    (Reply.ofResult source result, host)

end EchoHost

end LiteralBridge
