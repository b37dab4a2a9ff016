import LiteralBridge.Binary64.Decimal
import LiteralBridge.Literal.Quoted
import LiteralBridge.Text.Alphanumeric

/-!
# Reading numbers

A numeral is taken apart into the digits before and after its point and its exponent. One with a
point or an exponent denotes the float nearest to it; any other one is an integer.
-/

namespace LiteralBridge.Literal

open Text

/-- The parts of a numeral without its sign. -/
structure Numeral where
  /-- The digits before the point. -/
  whole : List Char
  /-- The digits after the point, if there is one. -/
  fraction : Option (List Char)
  /-- The sign and the digits of the exponent, if there is one. -/
  exponent : Option (Bool × List Char)
deriving DecidableEq

namespace Numeral

/-- The numeral denotes a float. -/
def isFloat (n : Numeral) : Bool :=
  n.fraction.isSome || n.exponent.isSome

def scale (n : Numeral) : Int :=
  match n.exponent with
  | some (true, digits) => -ofDecimal digits
  | some (false, digits) => ofDecimal digits
  | Option.none => 0

def decimal (n : Numeral) : Decimal :=
  let fraction := n.fraction.getD []
  ⟨ofDecimal (n.whole ++ fraction), n.scale - fraction.length⟩

/-- An integer of several digits must not begin with zero, unless it is zero. -/
def hasLeadingZeros (n : Numeral) : Bool :=
  match n.whole with
  | '0' :: rest => rest.any (· != '0')
  | _ => false

/-- The literal that the numeral denotes after the given sign. -/
def literal (n : Numeral) (negative : Bool) : Except Fault Literal :=
  if n.isFloat then .ok (.float (.ofWord negative n.decimal.nearest))
  else if n.hasLeadingZeros then .error .leadingZeros
  else
    let i : Int := if negative then -ofDecimal n.whole else ofDecimal n.whole
    if FitsInt i then .ok (.int i) else .error .integerTooLarge

end Numeral

def spanDigits (cs : List Char) : List Char × List Char :=
  (cs.takeWhile Char.isDigit, cs.dropWhile Char.isDigit)

/-- Reads the fraction of a numeral, which may have no digits after its point. -/
def readFraction : List Char → Option (List Char) × List Char
  | '.' :: rest => (some (spanDigits rest).1, (spanDigits rest).2)
  | rest => (Option.none, rest)

def readExponentSign : List Char → Bool × List Char
  | '-' :: rest => (true, rest)
  | '+' :: rest => (false, rest)
  | rest => (false, rest)

/-- Reads the exponent of a numeral, which must have a digit. -/
def readExponent : Reader (Option (Bool × List Char))
  | [] => .ok (Option.none, [])
  | c :: rest =>
    if c = 'e' ∨ c = 'E' then
      let (negative, afterSign) := readExponentSign rest
      let (digits, after) := spanDigits afterSign
      if digits.isEmpty then .error ⟨.noExponentDigits, afterSign⟩
      else .ok (some (negative, digits), after)
    else .ok (Option.none, c :: rest)

/-- A character that must not follow a number. -/
def continuesNumber (c : Char) : Bool :=
  isAlphanumeric c || c == '_' || c == '.'

/-- Reads a numeral, which must not run into the text after it. -/
def readNumeral : Reader Numeral := fun cs =>
  let (whole, afterWhole) := spanDigits cs
  if whole.isEmpty then .error ⟨.noDigits, cs⟩
  else
    let (fraction, afterFraction) := readFraction afterWhole
    match readExponent afterFraction with
    | .error stop => .error stop
    | .ok (exponent, after) =>
      if after.head?.any continuesNumber then .error ⟨.malformedNumber, after⟩
      else .ok (⟨whole, fraction, exponent⟩, after)

/-- Reads a number after its sign. `start` is the text from the sign on, where a number that denotes
nothing is reported. -/
def readNumber (start : List Char) (negative : Bool) : Reader Literal := fun cs =>
  match readNumeral cs with
  | .error stop => .error stop
  | .ok (numeral, after) =>
    match numeral.literal negative with
    | .error reason => .error ⟨reason, start⟩
    | .ok literal => .ok (literal, after)

end LiteralBridge.Literal
