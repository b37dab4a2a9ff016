/-!
# Bytes as symbols

JSON text that comes as bytes need not be valid UTF-8 throughout: a byte that belongs to no
character may stand in a string that nobody looks at. So the bytes are taken apart into symbols,
which are characters and such stray bytes.
-/

namespace LiteralBridge.Json

/-- A character, or a byte that is part of none. -/
inductive Symbol where
  | char (c : Char)
  | stray (byte : UInt8)
deriving DecidableEq

def symbols (text : String) : List Symbol :=
  text.toList.map .char

/-- The symbols of bytes from a position on, at most `bound` of them. -/
def symbolsFrom (bytes : ByteArray) : (bound position : Nat) → List Symbol
  | 0, _ => []
  | bound + 1, position =>
    match bytes.utf8DecodeChar? position with
    | some c => .char c :: symbolsFrom bytes bound (position + c.utf8Size)
    | none =>
      match bytes[position]? with
      | some byte => .stray byte :: symbolsFrom bytes bound (position + 1)
      | none => []

/-- The symbols of bytes: the characters of the text that they encode, or, if they encode none,
characters and stray bytes as they follow each other. -/
def symbolsOfBytes (bytes : ByteArray) : List Symbol :=
  match String.fromUTF8? bytes with
  | some text => symbols text
  | none => symbolsFrom bytes bytes.size 0

/-- Bytes that encode a text are read as that text. -/
theorem symbolsOfBytes_toUTF8 (text : String) : symbolsOfBytes text.toUTF8 = symbols text := by
  have h : String.fromUTF8? text.toUTF8 = some text := dif_pos text.isValidUTF8
  simp only [symbolsOfBytes, h]

end LiteralBridge.Json
