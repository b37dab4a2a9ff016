import LiteralBridge.Literal.Basic
import LiteralBridge.Text.Diagnostic

/-!
# What can be wrong with the text of a literal
-/

namespace LiteralBridge.Literal

open Text

/-- The reason why a text is not a literal. -/
inductive Fault where
  /-- A literal is followed by more text. -/
  | trailingText
  | endOfText
  | unexpected (c : Char)
  /-- One character was needed where another stands, or none. -/
  | wanted (expected : Char) (found : Option Char)
  | tooDeep (limit : Nat)
  /-- An item is followed by something else than a comma or the closing bracket. -/
  | unseparated (closing found : Char)
  | unclosed (opening : Char)
  /-- A minus sign stands before a name that denotes no float. -/
  | notNegatable (shape : Shape)
  | noDigits
  | noExponentDigits
  /-- A number runs into a letter, a digit of another script, an underscore or a point. -/
  | malformedNumber
  | leadingZeros
  | integerTooLarge
  | unknownName (name : String)
  /-- The call for a special float lacks its string. -/
  | floatWithoutString
  | unsupportedFloat (argument : String)
  | unclosedString
  | lineBreakInString
  | unfinishedEscape
  | unknownEscape (c : Char)
  | truncatedHex
  | invalidCodePoint (code : Nat)
deriving DecidableEq

def Fault.message : Fault → String
  | trailingText => "trailing characters after literal"
  | endOfText => "unexpected end of input"
  | unexpected c => "unexpected character " ++ quotedChar c
  | wanted expected (some found) =>
    "expected " ++ quotedChar expected ++ ", found " ++ quotedChar found
  | wanted expected Option.none => "expected " ++ quotedChar expected ++ ", found end of input"
  | tooDeep limit => "nesting exceeds the limit of " ++ toString limit
  | unseparated closing found =>
    "expected ',' or " ++ quotedChar closing ++ ", found " ++ quotedChar found
  | unclosed opening => "unterminated " ++ quotedChar opening
  | notNegatable shape => "cannot negate " ++ shape.name
  | noDigits => "expected digits"
  | noExponentDigits => "expected exponent digits"
  | malformedNumber => "malformed number"
  | leadingZeros => "leading zeros in integer literal"
  | integerTooLarge => "integer literal too large"
  | unknownName name => "unknown name `" ++ name ++ "`"
  | floatWithoutString => "expected a string argument to float()"
  | unsupportedFloat argument => "unsupported float() argument " ++ quoted argument
  | unclosedString => "unterminated string"
  | lineBreakInString => "newline in string literal"
  | unfinishedEscape => "unterminated escape"
  | unknownEscape c => "unknown escape \\" ++ String.singleton c
  | truncatedHex => "truncated hex escape"
  | invalidCodePoint code => "invalid code point 0x" ++ String.ofList (hex code)

/-- A reason and the place in the text, as an offset in bytes. -/
structure ParseError where
  offset : Nat
  reason : Fault
deriving DecidableEq

def ParseError.message (e : ParseError) : String :=
  e.reason.message ++ " at offset " ++ toString e.offset

end LiteralBridge.Literal
