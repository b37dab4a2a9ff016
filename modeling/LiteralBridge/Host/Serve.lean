import LiteralBridge.Channel.Stream

/-!
# Hosts behind lines

The host side of a channel over lines, and the channel that results if the host answers everything
ahead of time.
-/

namespace LiteralBridge

open Text

variable {ε : Type} [Evaluator ε]

/-- Serves one line: the framed response of the host. A line that is no frame is a syntax error. -/
def serveLine (host : ε) (marker : String) (line : List Char) : String × ε :=
  match Framing.unframe (String.ofList line) with
  | .ok source =>
    let (result, host) := Evaluator.evaluate host source
    (Framing.frameResponse marker result, host)
  | .error e => (Framing.frameResponse marker (.error ⟨"SyntaxError", e.message, ""⟩), host)

def serveAll (host : ε) (marker : String) : List (List Char) → List String × ε
  | [] => ([], host)
  | line :: rest =>
    let (response, host) := serveLine host marker line
    let (responses, host) := serveAll host marker rest
    (response :: responses, host)

/-- Texts, each on a line of its own. -/
def joinLines (texts : List String) : String :=
  texts.foldr (fun text rest => text ++ "\n" ++ rest) ""

/-- Serves the lines of a text: the framed responses, each on a line of its own. -/
def serveLines (host : ε) (requests marker : String) : String × ε :=
  let (responses, host) := serveAll host marker (lines requests.toList)
  (joinLines responses, host)

/-- Serves sources ahead of time, and gives the channel that replays the answers. -/
def replayChannel (host : ε) (sources : List String) (marker : String) :
    Except InvalidConfig LineStream × ε :=
  let (output, host) := serveLines host (joinLines (sources.map Framing.frame)) marker
  (LineStream.withMarker { incoming := IncomingLine.ofText output } marker, host)

end LiteralBridge
