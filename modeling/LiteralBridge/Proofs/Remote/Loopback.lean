import LiteralBridge.Proofs.Host.Replay
import LiteralBridge.Proofs.Remote.Calls
import LiteralBridge.Remote.Loopback

/-! # Calls straight into a host

A call over a loopback is one evaluation by its host (`Client.execute_loopback`), and no response
waits after it. So a host behind envelopes is not told from one that is asked directly
(`executeAll_loopback`), whatever texts are bound in it: nothing marks a fault but the envelope. -/

namespace LiteralBridge

/-! ## One call -/

section Calls

variable {wire : Wire} {ε : Type} [Evaluator ε] (loopback : Loopback wire ε)
  (ids : Nat → MessageId) (calls : Nat)

/-- What waited before a call is replaced by the answer to the call, which is received at once. -/
theorem Client.call_loopback (source : String) :
    call (⟨loopback, ids, calls⟩ : Client wire (Loopback wire ε)) source =
      (.ok (.ofResult (Evaluator.evaluate loopback.host source).1),
        ⟨{ host := (Evaluator.evaluate loopback.host source).2 }, ids, calls + 1⟩) := by
  let request : ExecutionRequest := .ofSource (ids calls) source
  have hversion : request.version = .current := rfl
  have hsend : Transport.send loopback (wire.request.write request) =
      (.ok (), (⟨(Evaluator.evaluate loopback.host source).2,
        some (wire.response.write
          (.ofResult (ids calls) (Evaluator.evaluate loopback.host source).1))⟩ : Loopback wire ε)) := by
    simp only [Transport.send, handleFrame_write loopback.host hversion]
    rfl
  have haccept := acceptResponse_write wire (ids calls) (ids calls)
    (Evaluator.evaluate loopback.host source).1
  rw [if_pos rfl] at haccept
  simp only [call, hsend, Transport.receive, haccept, request]

/-- A source that is executed over a loopback is evaluated by the host. -/
theorem Client.execute_loopback (source : String) :
    Channel.execute (⟨loopback, ids, calls⟩ : Client wire (Loopback wire ε)) source =
      (Reply.ofResult source (Evaluator.evaluate loopback.host source).1,
        ⟨{ host := (Evaluator.evaluate loopback.host source).2 }, ids, calls + 1⟩) := by
  simp only [Channel.execute, call_loopback, Outcome.result_ofResult]

end Calls

/-! ## Runs -/

/-- Sources that are executed over an empty loopback are evaluated in order, and it is empty again. -/
theorem Client.executeAll_loopback_eq (wire : Wire) {ε : Type} [Evaluator ε] (host : ε)
    (ids : Nat → MessageId) (calls : Nat) (sources : List String) :
    executeAll (⟨{ host := host }, ids, calls⟩ : Client wire (Loopback wire ε)) sources =
      (List.zipWith Reply.ofResult sources (evaluateAll host sources).1,
        ⟨{ host := (evaluateAll host sources).2 }, ids, calls + sources.length⟩) := by
  induction sources generalizing host calls with
  | nil => rfl
  | cons source rest ih =>
    simp only [executeAll, execute_loopback, ih, evaluateAll, List.zipWith_cons_cons,
      List.length_cons, Nat.add_assoc, Nat.add_comm 1]

/-- A host behind envelopes gives for every source what it gives if it is asked directly, and is the
same after it. It evaluates every source once, in order, and no response waits between the calls. -/
theorem executeAll_loopback (wire : Wire) (host : EchoHost) (ids : Nat → MessageId) (calls : Nat)
    (sources : List String) :
    let client : Client wire (Loopback wire EchoHost) := ⟨{ host := host }, ids, calls⟩
    (executeAll client sources).1 = (executeAll host sources).1 ∧
      (executeAll client sources).2.transport.host = (executeAll host sources).2 ∧
      (executeAll client sources).2.transport.host.requests = host.requests ++ sources ∧
      ∀ n, (executeAll client (sources.take n)).2.transport.pending = none := by
  intro client
  have hrun (sources : List String) := Client.executeAll_loopback_eq wire host ids calls sources
  refine ⟨?_, ?_, ?_, ?_⟩
  · rw [hrun, host.executeAll_eq]
  · rw [hrun, host.executeAll_eq]
  · rw [hrun]
    exact host.requests_evaluateAll sources
  · intro n
    rw [hrun]

end LiteralBridge
