import LiteralBridge.Binary64.Basic
import LiteralBridge.Text.Numeral

/-!
# Decimal numbers and the shortest one that reads back

A decimal number is a coefficient times a power of ten. `Decimal.nearest` rounds one to a magnitude
word; `Decimal.shortest` finds, for a magnitude word, the decimal number with the fewest digits that
rounds to it, and of those the nearest. The main statement is `nearest_shortest`: the result reads
back.
-/

namespace LiteralBridge

open Text (decimal lt_length_decimal length_decimal_le)

/-- The number `coefficient * 10 ^ exponent`. -/
structure Decimal where
  /-- The whole number that is scaled. -/
  coefficient : Nat
  /-- The power of ten that scales it. -/
  exponent : Int
deriving DecidableEq

namespace Decimal

open Binary64

def numerator (d : Decimal) : Nat :=
  d.coefficient * Nat.pow 10 d.exponent.toNat

def denominator (d : Decimal) : Nat :=
  Nat.pow 10 (-d.exponent).toNat

/-- The place of the first digit: the number is below ten to this power, and at least a tenth of
it. -/
def order (d : Decimal) : Int :=
  (decimal d.coefficient).length + d.exponent

/-- The magnitude word nearest to a decimal number. Orders far outside the range of a double are
told apart by their sign, so that no power of ten is ever huge. -/
def nearest (d : Decimal) : Nat :=
  if d.coefficient = 0 then 0
  else if 400 < d.order then infinityWord
  else if d.order < -400 then 0
  else Binary64.nearest d.numerator d.denominator

/-! ## The shortest decimal number -/

/-- The exponent of the exact form of every magnitude. -/
def exactExponent : Int := -unitExponent

/-- The coefficient that writes a magnitude exactly: two to a negative power is five to the
positive power over the same power of ten. -/
def exactCoefficient (word : Nat) : Nat :=
  units word * Nat.pow 5 unitExponent

/-- The neighbours of a magnitude among the decimal numbers of `count` digits, the nearer one
first. Of two that are equally near, the upper one comes first, unless ties go to the even one. -/
def neighbours (tiesToEven : Bool) (exact : Nat) (width count : Nat) : List Decimal :=
  let place := Nat.pow 10 (width - count)
  let low := exact / place
  let twice := 2 * (exact % place)
  let exponent := exactExponent + (width - count : Nat)
  let below : Decimal := ⟨low, exponent⟩
  let above : Decimal := ⟨low + 1, exponent⟩
  if twice < place ∨ (twice = place ∧ tiesToEven ∧ low % 2 = 0) then [below, above]
  else [above, below]

/-- The candidates for the shortest form, in the order of their number of digits. Seventeen digits
tell all doubles apart. -/
def candidates (tiesToEven : Bool) (exact : Nat) : List Decimal :=
  let width := (decimal exact).length
  (List.range 17).flatMap fun i => neighbours tiesToEven exact width (i + 1)

/-- The first candidate that rounds to the magnitude; its exact form if there is none. -/
def shortest (tiesToEven : Bool) (word : Nat) : Decimal :=
  let exact := exactCoefficient word
  ((candidates tiesToEven exact).find? fun d => d.nearest == word).getD ⟨exact, exactExponent⟩

/-! ## The shortest decimal number reads back -/

theorem units_pos {word : Nat} (h : 0 < word) : 0 < units word := by
  by_cases hs : word < 2 * fractionSize
  · rw [units, if_pos hs]
    exact h
  · obtain ⟨s, r, -, -, hu⟩ := units_of_le (Nat.not_lt.mp hs)
    rw [hu]
    exact Nat.mul_pos (Nat.lt_add_right r (by decide)) (pow_pos (by decide))

theorem units_le {word a : Nat} (h : word / fractionSize ≤ a + 1) :
    units word ≤ Nat.pow 2 (53 + a) := by
  refine Nat.le_trans ?_ (Nat.le_of_eq (Nat.pow_add 2 53 a).symm)
  have hsize : Nat.pow 2 53 = 2 * fractionSize := by decide
  by_cases hs : word < 2 * fractionSize
  · rw [units, if_pos hs]
    exact Nat.le_trans (Nat.le_of_lt hs) (hsize ▸ Nat.le_mul_of_pos_right _ (pow_pos (by decide)))
  · have hr : word % fractionSize < fractionSize := Nat.mod_lt _ (by decide)
    rw [units, if_neg hs]
    refine Nat.mul_le_mul ?_ (Nat.pow_le_pow_right (by decide) (Nat.sub_le_of_le_add h))
    exact Nat.le_trans (by omega) (Nat.le_of_eq hsize.symm)

theorem pow_ten_le_pow_five {m n : Nat} (h : 3 * m ≤ n) : Nat.pow 10 (2 * m) ≤ Nat.pow 5 n :=
  calc Nat.pow 10 (2 * m)
      = Nat.pow (Nat.pow 10 2) m := Nat.pow_mul 10 2 m
    _ ≤ Nat.pow (Nat.pow 5 3) m := Nat.pow_le_pow_left (by decide) m
    _ = Nat.pow 5 (3 * m) := (Nat.pow_mul 5 3 m).symm
    _ ≤ Nat.pow 5 n := Nat.pow_le_pow_right (by decide) h

theorem pow_two_mul_pow_five_le {k m n : Nat} (h : k ≤ 3 * m + n) :
    Nat.pow 2 k * Nat.pow 5 n ≤ Nat.pow 10 (m + n) :=
  calc Nat.pow 2 k * Nat.pow 5 n
      ≤ Nat.pow 2 (3 * m + n) * Nat.pow 5 n :=
        Nat.mul_le_mul_right _ (Nat.pow_le_pow_right (by decide) h)
    _ = Nat.pow 2 (3 * m) * (Nat.pow 2 n * Nat.pow 5 n) := by
        rw [← Nat.mul_assoc]
        exact congrArg (· * Nat.pow 5 n) (Nat.pow_add 2 (3 * m) n)
    _ = Nat.pow (Nat.pow 2 3) m * Nat.pow (2 * 5) n :=
        congr (congrArg _ (Nat.pow_mul 2 3 m)) (Nat.mul_pow 2 5 n).symm
    _ ≤ Nat.pow 10 m * Nat.pow 10 n := Nat.mul_le_mul_right _ (Nat.pow_le_pow_left (by decide) m)
    _ = Nat.pow 10 (m + n) := (Nat.pow_add 10 m n).symm

theorem units_mul_le {word a m n : Nat} (h : word / fractionSize ≤ a + 1)
    (hm : 53 + a ≤ 3 * m + n) : units word * Nat.pow 5 n ≤ Nat.pow 10 (m + n) :=
  Nat.le_trans (Nat.mul_le_mul_right _ (units_le h)) (pow_two_mul_pow_five_le hm)

/-- The order of the exact form of a magnitude lies within the bounds of `nearest`. -/
theorem order_exact {word : Nat} (hp : 0 < word) (h : word ≤ infinityWord) :
    -400 ≤ (Decimal.mk (exactCoefficient word) exactExponent).order ∧
      (Decimal.mk (exactCoefficient word) exactExponent).order ≤ 400 := by
  have hw : word / fractionSize ≤ 2046 + 1 := Nat.div_le_div_right h
  have he := unitExponent_eq
  have hf : Nat.pow 10 (2 * 337) ≤ Nat.pow 5 unitExponent :=
    pow_ten_le_pow_five (m := 337) (by omega)
  have hb : exactCoefficient word ≤ Nat.pow 10 (342 + unitExponent) :=
    units_mul_le (a := 2046) (m := 342) hw (by omega)
  have hl := lt_length_decimal (n := exactCoefficient word) (k := 2 * 337) (by decide)
    (Nat.le_trans hf (Nat.le_mul_of_pos_left _ (units_pos hp)))
  have hu := length_decimal_le (k := 343 + unitExponent) (by omega) (Nat.lt_of_le_of_lt hb
    (Nat.pow_lt_pow_right (by decide) (Nat.add_lt_add_right (by decide : 342 < 343) _)))
  simp only [order, exactExponent]
  omega

/-- The exact form of a magnitude rounds to it. -/
theorem nearest_exact {word : Nat} (h : word ≤ infinityWord) :
    (Decimal.mk (exactCoefficient word) exactExponent).nearest = word := by
  rcases Nat.eq_zero_or_pos word with rfl | hp
  · have hz : exactCoefficient 0 = 0 := by
      rw [exactCoefficient, show units 0 = 0 from rfl, Nat.zero_mul]
    rw [nearest, if_pos hz]
  · have ho := order_exact hp h
    have hfive : 0 < Nat.pow 5 unitExponent := pow_pos (by decide)
    have hc : exactCoefficient word ≠ 0 := Nat.ne_of_gt (Nat.mul_pos (units_pos hp) hfive)
    have hn : (Decimal.mk (exactCoefficient word) exactExponent).numerator =
        Nat.pow 5 unitExponent * units word := by
      have hz : exactExponent.toNat = 0 := by
        rw [exactExponent]
        omega
      rw [numerator, hz, exactCoefficient, Nat.mul_comm (units word)]
      exact Nat.mul_one _
    have he : (-exactExponent).toNat = unitExponent := by
      rw [exactExponent, Int.neg_neg, Int.toNat_natCast]
    have hd : (Decimal.mk (exactCoefficient word) exactExponent).denominator =
        Nat.pow 5 unitExponent * unitsPerOne := by
      rw [denominator, he]
      exact Nat.mul_pow 5 2 unitExponent
    rw [nearest, if_neg hc, if_neg (by omega), if_neg (by omega), hn, hd,
      nearest_mul_left hfive, nearest_units h]

/-- The shortest form of a magnitude rounds to it. -/
theorem nearest_shortest (tiesToEven : Bool) {word : Nat} (h : word ≤ infinityWord) :
    (shortest tiesToEven word).nearest = word := by
  rw [shortest]
  cases hf : (candidates tiesToEven (exactCoefficient word)).find? fun d => d.nearest == word with
  | none => exact nearest_exact h
  | some d => simpa using List.find?_some hf

end Decimal

end LiteralBridge
