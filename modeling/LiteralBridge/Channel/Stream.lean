import LiteralBridge.Channel.Basic
import LiteralBridge.Config.Basic
import LiteralBridge.Framing.Response

/-!
# Channels over lines

The host is at the other end of a pair of streams, with one line per message. What it writes is
known as the lines that are still to be read.
-/

namespace LiteralBridge

open Text

/-- A line from the host, with its terminator. -/
inductive IncomingLine where
  | text (content : List Char)
  /-- Bytes that are not UTF-8. -/
  | garbage (size : Nat)
deriving DecidableEq

namespace IncomingLine

def size : IncomingLine → Nat
  | text content => byteLength content
  | garbage size => size

def ofText (output : String) : List IncomingLine :=
  (terminatedLines output.toList).map .text

def ofLine (line : List UInt8) : IncomingLine :=
  match String.fromUTF8? ⟨line.toArray⟩ with
  | some content => text content.toList
  | none => garbage line.length

def ofBytes (output : List UInt8) : List IncomingLine :=
  (pieces (· == 10) output).map ofLine

end IncomingLine

structure LineStream where
  /-- The lines from the host that are not yet read. -/
  incoming : List IncomingLine
  marker : String := "!"
  /-- The number of bytes read. -/
  received : Nat := 0
  /-- The text written so far. -/
  sent : String := ""

namespace LineStream

/-- The channel with another marker, which must be valid. -/
def withMarker (stream : LineStream) (marker : String) : Except InvalidConfig LineStream := do
  checkMarker marker
  .ok { stream with marker := marker }

/-- What a line means as the answer to a request. -/
def interpret (marker source : String) : IncomingLine → Reply
  | .garbage _ => .error (.transport .notText)
  | .text content =>
    match Framing.parseResponse marker (String.ofList (dropEndWhile isLineBreak content)) with
    | .error e => .error (.transport (.badFrame e))
    | .ok response => Reply.ofResult source response

instance : Channel LineStream where
  execute stream source :=
    let sent := stream.sent ++ Framing.frame source ++ "\n"
    match stream.incoming with
    | [] => (.error (.transport .hostClosed), { stream with sent := sent })
    | line :: rest =>
      (interpret stream.marker source line,
        { stream with incoming := rest, received := stream.received + line.size, sent := sent })

end LineStream

end LiteralBridge
