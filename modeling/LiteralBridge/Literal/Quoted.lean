import LiteralBridge.Literal.Fault
import LiteralBridge.Text.Numeral

/-!
# Reading quoted strings

A reader takes the text from some point on and gives what it read and the rest, or stops with a
reason at a suffix of that text. `readBody` reads the inside of a string one character at a time;
its first argument counts the characters that an escape has already taken.
-/

namespace LiteralBridge.Literal

open Text

/-- Where reading stopped and why: `rest` is the text from that place on. -/
structure Stop where
  reason : Fault
  rest : List Char
deriving DecidableEq

/-- A reader of some part of the text. -/
abbrev Reader (α : Type) := List Char → Except Stop (α × List Char)

/-- The escapes of a single character. -/
def simpleEscape? : Char → Option Char
  | '\\' => some '\\'
  | '\'' => some '\''
  | '"' => some '"'
  | 'n' => some '\n'
  | 'r' => some '\r'
  | 't' => some '\t'
  | 'a' => some '\x07'
  | 'b' => some '\x08'
  | 'f' => some '\x0c'
  | 'v' => some '\x0b'
  | _ => Option.none

/-- The number of hexadecimal digits that an escape with this letter takes. -/
def hexEscapeWidth? : Char → Option Nat
  | 'x' => some 2
  | 'u' => some 4
  | 'U' => some 8
  | _ => Option.none

def codePoint (code : Nat) : Except Fault Char :=
  if h : code.isValidChar then .ok (Char.ofNatAux code h) else .error (.invalidCodePoint code)

/-- The longest octal number of at most three digits in front. -/
def octalDigits (cs : List Char) : List Char :=
  (cs.take 3).takeWhile fun c => (octalValue? c).isSome

/-- Reads an escape from the character after the backslash on: what it stands for, which is nothing
for a continued line, and the number of characters it takes. -/
def readEscape : List Char → Except Fault (Option Char × Nat)
  | [] => .error .unfinishedEscape
  | c :: rest =>
    match simpleEscape? c with
    | some decoded => .ok (some decoded, 1)
    | Option.none =>
      if c = '\n' then .ok (Option.none, 1)
      else
        match hexEscapeWidth? c with
        | some width =>
          let digits := rest.take width
          if digits.length < width then .error .truncatedHex
          else
            match readHex digits with
            | some code => (codePoint code).map fun decoded => (some decoded, width + 1)
            | Option.none => .error .truncatedHex
        | Option.none =>
          let digits := octalDigits (c :: rest)
          if digits.isEmpty then .error (.unknownEscape c)
          else
            match readDigits octalValue? 8 0 digits with
            | some code => (codePoint code).map fun decoded => (some decoded, digits.length)
            | Option.none => .error (.unknownEscape c)

/-- Reads the inside of a string and the quote that ends it. `start` is the text from the opening
quote on, where a string that is never closed is reported; the first `taken` characters belong to an
escape that is already read. -/
def readBody (start : List Char) (quote : Char) : (taken : Nat) → Reader (List Char)
  | _, [] => .error ⟨.unclosedString, start⟩
  | taken + 1, _ :: rest => readBody start quote taken rest
  | 0, c :: rest =>
    if c = quote then .ok ([], rest)
    else if c = '\\' then
      match readEscape rest with
      | .error reason => .error ⟨reason, c :: rest⟩
      | .ok (decoded, taken) => do
        let (cs, after) ← readBody start quote taken rest
        .ok (decoded.toList ++ cs, after)
    else if isLineBreak c then .error ⟨.lineBreakInString, rest⟩
    else do
      let (cs, after) ← readBody start quote 0 rest
      .ok (c :: cs, after)

/-- Reads a string from its opening quote on, which may be a single or a double one. -/
def readString : Reader String
  | [] => .error ⟨.endOfText, []⟩
  | quote :: rest => do
    let (cs, after) ← readBody (quote :: rest) quote 0 rest
    .ok (String.ofList cs, after)

/-- An octal escape takes at most three digits, a hexadecimal one all of its own. -/
example : readEscape "1234".toList = .ok (some 'S', 3) ∧
    readEscape "x4".toList = .error .truncatedHex ∧
    readEscape "ud800".toList = .error (.invalidCodePoint 0xd800) := ⟨rfl, rfl, rfl⟩

end LiteralBridge.Literal
