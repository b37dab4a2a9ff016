import LiteralBridge.Channel.Basic

/-!
# Scripted and recording channels

A script answers requests from a queue, whatever they say. A recording passes requests on and keeps
them.
-/

namespace LiteralBridge

/-- A channel with responses prepared in advance. -/
structure Script where
  /-- The responses that are not yet given. -/
  responses : List (Except RemoteFault String) := []
  /-- The requests so far, in order. -/
  requests : List String := []

namespace Script

/-- The script with one more response at the end. -/
def push (script : Script) (response : Except RemoteFault String) : Script :=
  { script with responses := script.responses ++ [response] }

instance : Channel Script where
  execute script source :=
    let requests := script.requests ++ [source]
    match script.responses with
    | [] => (.error (.transport .scriptExhausted), ⟨[], requests⟩)
    | response :: rest => (Reply.ofResult source response, ⟨rest, requests⟩)

end Script

/-- A channel that keeps the requests made through it. -/
structure Recording (σ : Type) where
  inner : σ
  /-- The requests so far, in order. -/
  requests : List String := []

instance {σ : Type} [Channel σ] : Channel (Recording σ) where
  execute recording source :=
    let (reply, inner) := Channel.execute recording.inner source
    (reply, ⟨inner, recording.requests ++ [source]⟩)

end LiteralBridge
