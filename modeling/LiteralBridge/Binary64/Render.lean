import LiteralBridge.Binary64.Decimal

/-!
# Written forms of double precision numbers

The digits of a number are those of its shortest decimal form. A format decides where positional
notation ends, how an exponent is marked, and which way ties between two shortest forms go.
`hostFormat` writes floats in host literals, `jsonFormat` in JSON documents.
-/

namespace LiteralBridge.Binary64

open Text (decimal decimalInt)

/-- The decisions of a float format. -/
structure Format where
  /-- The least exponent of the first digit that is written positionally. -/
  leastPositional : Int
  /-- The greatest exponent of the first digit that is written positionally. -/
  greatestPositional : Int
  /-- Whether a positive exponent carries a plus sign. -/
  plusInExponent : Bool
  /-- Whether a tie between two shortest forms goes to the even last digit, or upwards. -/
  tiesToEven : Bool

/-- Host literals are positional from a ten-thousandth up to below 10¹⁶. -/
def hostFormat : Format := ⟨-4, 15, false, false⟩

/-- JSON documents are positional from a hundred-thousandth up to below 10¹⁶. -/
def jsonFormat : Format := ⟨-5, 15, true, true⟩

/-- The significant digits of a coefficient: its decimal digits without zeros at the end, but at
least one. -/
def significantDigits (coefficient : Nat) : List Char :=
  match Text.dropZeros (decimal coefficient) with
  | [] => ['0']
  | digits => digits

/-- A decimal number in positional notation, with a digit on both sides of the point. `point` is
the number of digits before the point; it may be negative or exceed the digits. -/
def positional (digits : List Char) (point : Int) : List Char :=
  let before := point.toNat
  let whole := digits.take before ++ List.replicate (before - digits.length) '0'
  let fraction := List.replicate (-point).toNat '0' ++ digits.drop before
  (if whole.isEmpty then ['0'] else whole) ++ '.' :: (if fraction.isEmpty then ['0'] else fraction)

/-- A decimal number with one digit before the point and an exponent; the point is left out where
no digit follows it. -/
def exponential (plus : Bool) (digits : List Char) (exponent : Int) : List Char :=
  digits.take 1 ++ (if digits.length ≤ 1 then [] else '.' :: digits.drop 1) ++
    'e' :: ((if plus && 0 ≤ exponent then ['+'] else []) ++ decimalInt exponent)

/-- A decimal number in the notation that the format prescribes for its size. -/
def layout (format : Format) (d : Decimal) : List Char :=
  let digits := significantDigits d.coefficient
  let point := d.order
  if format.leastPositional ≤ point - 1 ∧ point - 1 ≤ format.greatestPositional then
    positional digits point
  else exponential format.plusInExponent digits (point - 1)

/-- The text of a finite number. Zero has no digits to search for and keeps its sign. -/
def renderFinite (format : Format) (x : Binary64) : List Char :=
  (if x.negative then ['-'] else []) ++
    (if x.magnitude = 0 then ['0', '.', '0']
     else layout format (Decimal.shortest format.tiesToEven x.magnitude))

/-- Small and large numbers at both ends of positional notation. -/
example : layout hostFormat ⟨1, -5⟩ = "1e-5".toList ∧ layout hostFormat ⟨1, -4⟩ = "0.0001".toList ∧
    layout hostFormat ⟨1, 15⟩ = "1000000000000000.0".toList ∧
    layout hostFormat ⟨1, 16⟩ = "1e16".toList := by decide

example : layout jsonFormat ⟨1, -6⟩ = "1e-6".toList ∧
    layout jsonFormat ⟨1, -5⟩ = "0.00001".toList ∧ layout jsonFormat ⟨15, -8⟩ = "1.5e-7".toList ∧
    layout jsonFormat ⟨1, 16⟩ = "1e+16".toList := by decide

end LiteralBridge.Binary64
