import LiteralBridge.Json.Basic
import LiteralBridge.Text.Numeral

/-!
# What JSON numbers denote

A number is first taken apart into its digits. An integer that a word of 64 bits holds is that
integer. Any other number is a float: the leading digits that fit into a word of 64 bits are taken
as its significand, and the significand is multiplied or divided by a power of ten, where every step
rounds. A number whose float would be infinite is no number.
-/

namespace LiteralBridge.Json

open Text
open Binary64 (infinityWord nearest mulWord divWord)

/-- The parts of a number. -/
structure Numeral where
  negative : Bool
  /-- The digits before the point. -/
  whole : List Char
  /-- The digits after the point; none without a point. -/
  fraction : List Char
  /-- The sign and the digits of the exponent, if there is one. -/
  exponent : Option (Bool × List Char)
deriving DecidableEq

/-- The number of values of a significand word. -/
def significandBound : Nat := 0x10000000000000000

/-- Digits taken into a significand as long as it stays in its word, how many were taken, and the
first digit that would leave it with all after it. -/
def takeDigits (significand taken : Nat) : List Char → Nat × Nat × List Char
  | [] => (significand, taken, [])
  | c :: rest =>
    let next := significand * 10 + (c.toNat - '0'.toNat)
    if next < significandBound then takeDigits next (taken + 1) rest
    else (significand, taken, c :: rest)

/-- A power of ten as a float. -/
def powerOfTen (k : Nat) : Nat :=
  nearest (Nat.pow 10 k) 1

def greatestPower : Nat := 308

/-- A magnitude times a power of ten, or nothing if that is too large. A very small power is applied
in several divisions. -/
def scale (word : Nat) (exponent : Int) : Option Nat :=
  if exponent < -greatestPower then
    if word = 0 then some 0
    else scale (divWord word (powerOfTen greatestPower)) (exponent + greatestPower)
  else if exponent < 0 then some (divWord word (powerOfTen (-exponent).toNat))
  else if word = 0 then some 0
  else if greatestPower < exponent then none
  else
    let product := mulWord word (powerOfTen exponent.toNat)
    if product < infinityWord then some product else none
termination_by (-exponent).toNat
decreasing_by simp only [greatestPower] at *; omega

/-- The greatest exponent that is applied as it is written. -/
def greatestExponent : Nat := 0x7fffffff

/-- The magnitude of a significand times a power of ten with the given sign and digits. -/
def scaleWritten (significand : Nat) (exponent : Int) :
    Option (Bool × List Char) → Option Nat
  | none => scale (nearest significand 1) exponent
  | some (negative, digits) =>
    let written := ofDecimal digits
    if greatestExponent < written then
      if significand ≠ 0 ∧ !negative then none else some 0
    else
      scale (nearest significand 1) (if negative then exponent - written else exponent + written)

/-- The magnitude of the float that a number denotes. -/
def Numeral.magnitude? (n : Numeral) : Option Nat :=
  let (start, _, dropped) := takeDigits 0 0 n.whole
  let (significand, taken, _) := takeDigits start 0 n.fraction
  scaleWritten significand (dropped.length - taken) n.exponent

/-- The finite float with a sign and a magnitude. -/
def ofFinite? (negative : Bool) (word : Nat) : Option JsonNumber :=
  let x := Binary64.ofWord negative word
  if h : x.isFinite = true then some (.float x h) else none

/-- The number that a numeral denotes, if any. Negative zero is a float. -/
def Numeral.number? (n : Numeral) : Option JsonNumber :=
  let magnitude := ofDecimal n.whole
  let i : Int := if n.negative then -magnitude else magnitude
  if h : n.fraction = [] ∧ n.exponent = none ∧ ¬(n.negative = true ∧ magnitude = 0) ∧
      (-0x8000000000000000 ≤ i ∧ i < 0x10000000000000000) then
    some (.integer i h.2.2.2)
  else n.magnitude?.bind (ofFinite? n.negative)

end LiteralBridge.Json
