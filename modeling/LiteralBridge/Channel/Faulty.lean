import LiteralBridge.Channel.Basic
import LiteralBridge.Word

/-!
# Planned faults

A faulty channel fails requests as a plan says. Before a request is delivered, the plan may close
the channel, drop the request, or raise a fault in its place, in this order of precedence; the
response to a delivered request may be garbled. Counts of the same fault add up as words, and of
several limits the last one counts.
-/

namespace LiteralBridge

inductive PlannedFault where
  /-- Drops requests before they reach the host. -/
  | drop (count : Nat)
  /-- Answers a request with a fault in place of evaluating it. -/
  | raise (kind message : String)
  /-- Replaces results of requests that the host evaluated. -/
  | garble (count : Nat)
  /-- Closes the channel after a number of requests has reached the host. -/
  | close (after : Nat)
deriving DecidableEq

/-- What is left of a plan. -/
structure Faults where
  drops : Nat := 0
  garbles : Nat := 0
  raises : List RemoteFault := []
  closeAfter : Option Nat := none
  /-- The number of requests that reached the host. -/
  delivered : Nat := 0

namespace Faults

def add (faults : Faults) : PlannedFault → Except Panic Faults
  | .drop count => (Word.add faults.drops count).map fun n => { faults with drops := n }
  | .garble count => (Word.add faults.garbles count).map fun n => { faults with garbles := n }
  | .raise kind message => .ok { faults with raises := faults.raises ++ [⟨kind, message, ""⟩] }
  | .close after => .ok { faults with closeAfter := some after }

/-- The faults of a plan before the first request. -/
def ofPlan (plan : List PlannedFault) : Except Panic Faults :=
  plan.foldlM add {}

def isClosed (faults : Faults) : Bool :=
  faults.closeAfter.any fun limit => limit ≤ faults.delivered

/-- What a request with a source meets before it is delivered: the error it fails with and the
faults left after it, or nothing. -/
def meet? (faults : Faults) (source : String) : Option (ChannelError × Faults) :=
  if faults.isClosed then some (.transport .channelClosed, faults)
  else if 0 < faults.drops then
    some (.transport .requestDropped, { faults with drops := faults.drops - 1 })
  else
    match faults.raises with
    | fault :: rest => some (.remote (fault.withRequest source), { faults with raises := rest })
    | [] => none

def garbledText : String := "<garbled>"

/-- What becomes of the reply to a delivered request. Only results are garbled. -/
def settle (faults : Faults) (reply : Reply) : Reply × Faults :=
  let faults := { faults with delivered := faults.delivered + 1 }
  match reply with
  | .ok text =>
    if 0 < faults.garbles then (.ok garbledText, { faults with garbles := faults.garbles - 1 })
    else (.ok text, faults)
  | .error e => (.error e, faults)

end Faults

/-- A channel with planned faults. -/
structure Faulty (σ : Type) where
  inner : σ
  faults : Faults

/-- Puts the faults of a plan around a channel. -/
def Faulty.ofPlan {σ : Type} (inner : σ) (plan : List PlannedFault) : Except Panic (Faulty σ) :=
  (Faults.ofPlan plan).map fun faults => ⟨inner, faults⟩

instance {σ : Type} [Channel σ] : Channel (Faulty σ) where
  execute channel source :=
    match channel.faults.meet? source with
    | some (e, faults) => (.error e, ⟨channel.inner, faults⟩)
    | none =>
      let (reply, inner) := Channel.execute channel.inner source
      let (reply, faults) := channel.faults.settle reply
      (reply, ⟨inner, faults⟩)

end LiteralBridge
