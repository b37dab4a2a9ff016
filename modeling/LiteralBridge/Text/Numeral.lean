import LiteralBridge.Text.Class

/-!
# Numerals

Whole numbers in decimal and hexadecimal digits. `ofDecimal_decimal` says that a decimal numeral
reads back, `readHex_hexDigits` the same of hexadecimal digits of a fixed width.
-/

namespace LiteralBridge.Text

/-- The decimal digits of a number, without leading zeros. -/
def decimal (n : Nat) : List Char :=
  Nat.toDigits 10 n

/-- The decimal digits of an integer, after a minus sign if it is negative. -/
def decimalInt : Int → List Char
  | .ofNat n => decimal n
  | .negSucc n => '-' :: decimal (n + 1)

/-- The digits without the zeros at their end. -/
def dropZeros : List Char → List Char
  | [] => []
  | c :: rest =>
    match dropZeros rest with
    | [] => if c = '0' then [] else [c]
    | more => c :: more

/-- The number that decimal digits stand for. -/
def ofDecimal (digits : List Char) : Nat :=
  Nat.ofDigitChars 10 digits 0

/-- The hexadecimal digits of a number, without leading zeros. -/
def hex (n : Nat) : List Char :=
  Nat.toDigits 16 n

/-- The last `width` hexadecimal digits of a number, in lower case. -/
def hexDigits : (width : Nat) → Nat → List Char
  | 0, _ => []
  | width + 1, n => hexDigits width (n / 16) ++ [Nat.digitChar (n % 16)]

/-- The value of an octal digit. -/
def octalValue? (c : Char) : Option Nat :=
  if '0' ≤ c ∧ c ≤ '7' then some (c.toNat - '0'.toNat) else none

/-- The value of a hexadecimal digit in either case. -/
def hexValue? (c : Char) : Option Nat :=
  if '0' ≤ c ∧ c ≤ '9' then some (c.toNat - '0'.toNat)
  else if 'a' ≤ c ∧ c ≤ 'f' then some (c.toNat - 'a'.toNat + 10)
  else if 'A' ≤ c ∧ c ≤ 'F' then some (c.toNat - 'A'.toNat + 10)
  else none

/-- Reads digits of the given base after a number already read. -/
def readDigits (value? : Char → Option Nat) (base : Nat) : Nat → List Char → Option Nat
  | n, [] => some n
  | n, c :: rest =>
    match value? c with
    | some d => readDigits value? base (n * base + d) rest
    | none => none

/-- The number that hexadecimal digits stand for, or nothing if a character is no such digit. -/
def readHex (digits : List Char) : Option Nat :=
  readDigits hexValue? 16 0 digits

/-- Decimal digits read back. -/
theorem ofDecimal_decimal (n : Nat) : ofDecimal (decimal n) = n :=
  Nat.ofDigitChars_ten_toDigits

theorem isDigit_of_mem_decimal {n : Nat} {c : Char} (h : c ∈ decimal n) : c.isDigit = true :=
  Nat.isDigit_of_mem_toDigits (by decide) (by decide) h

theorem decimal_ne_nil (n : Nat) : decimal n ≠ [] :=
  Nat.toDigits_ne_nil

/-- Only zero begins with a zero. -/
theorem eq_zero_of_head_decimal {n : Nat} (h : (decimal n).head? = some '0') : n = 0 := by
  induction n using Nat.strongRecOn with
  | _ n ih =>
    by_cases hn : n < 10
    · rw [decimal, Nat.toDigits_of_lt_base hn] at h
      have small : ∀ m < 10, [Nat.digitChar m].head? = some '0' → m = 0 := by decide
      exact small n hn h
    · have hne : Nat.toDigits 10 (n / 10) ≠ [] := Nat.toDigits_ne_nil
      rw [decimal, Nat.toDigits_of_base_le (by decide) (Nat.not_lt.mp hn), List.head?_append,
        List.head?_eq_some_head hne, Option.some_or, ← List.head?_eq_some_head hne] at h
      have hz := ih (n / 10) (by omega) h
      omega

/-- A number from a power of ten on has more digits than the power. -/
theorem lt_length_decimal {n k : Nat} (hk : 0 < k) (h : Nat.pow 10 k ≤ n) :
    k < (decimal n).length :=
  Nat.lt_of_not_le fun hl =>
    Nat.not_lt.mpr h ((Nat.length_toDigits_le_iff (by decide) hk).mp hl)

/-- A number below a power of ten has no more digits than the power. -/
theorem length_decimal_le {n k : Nat} (hk : 0 < k) (h : n < Nat.pow 10 k) :
    (decimal n).length ≤ k :=
  (Nat.length_toDigits_le_iff (by decide) hk).mpr h

theorem hexValue?_digitChar {d : Nat} (h : d < 16) : hexValue? (Nat.digitChar d) = some d := by
  have : ∀ d < 16, hexValue? (Nat.digitChar d) = some d := by decide
  exact this d h

theorem length_hexDigits (width n : Nat) : (hexDigits width n).length = width := by
  induction width generalizing n with
  | zero => rfl
  | succ width ih => simp [hexDigits, ih]

theorem readDigits_append (value? : Char → Option Nat) (base n : Nat) (cs ds : List Char) :
    readDigits value? base n (cs ++ ds) =
      (readDigits value? base n cs).bind fun m => readDigits value? base m ds := by
  induction cs generalizing n with
  | nil => rfl
  | cons c cs ih =>
    simp only [List.cons_append, readDigits]
    cases value? c with
    | none => rfl
    | some d => exact ih _

/-- Hexadecimal digits of a fixed width read back as the number modulo their range. -/
theorem readHex_hexDigits (width n : Nat) :
    readHex (hexDigits width n) = some (n % Nat.pow 16 width) := by
  induction width generalizing n with
  | zero => simp [hexDigits, readHex, readDigits, Nat.mod_one]
  | succ width ih =>
    have hd := hexValue?_digitChar (Nat.mod_lt n (by decide : 16 > 0))
    have ih' := ih (n / 16)
    simp only [readHex] at ih'
    simp only [hexDigits, readHex, readDigits_append, ih', Option.bind_some, readDigits, hd,
      Option.some.injEq]
    have hp : Nat.pow 16 (width + 1) = 16 * Nat.pow 16 width := Nat.mul_comm ..
    rw [hp, Nat.mod_mul]
    omega

end LiteralBridge.Text
