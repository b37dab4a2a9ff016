import LiteralBridge.Binary64.Decimal
import Mathlib.Algebra.Order.Field.Power
import Mathlib.Tactic.Linarith
import Mathlib.Tactic.Ring

/-! # The nearest double

A quotient is rounded to the magnitude that is nearest to it, and a tie to the one with the even word
(`roundsTo_nearest`), and so is a decimal number of any order (`Decimal.roundsTo_nearest`). There is only
one magnitude to round to (`RoundsTo.unique`). -/

namespace LiteralBridge

namespace Binary64

/-! ## Magnitudes as significands -/

theorem units_eq (word : ℕ) :
    units word = (word - (word / fractionSize - 1) * fractionSize) * 2 ^ (word / fractionSize - 1) := by
  rw [units]
  split
  · next h =>
    have hzero : word / fractionSize - 1 = 0 := by
      simp only [fractionSize] at *
      omega
    rw [hzero, Nat.zero_mul, Nat.sub_zero, Nat.pow_zero, Nat.mul_one]
  · next h =>
    have hfraction : fractionSize + word % fractionSize =
        word - (word / fractionSize - 1) * fractionSize := by
      simp only [fractionSize] at *
      omega
    rw [hfraction]
    rfl

theorem units_significand {s m : ℕ} (hs : s = 0 ∨ fractionSize ≤ m) (hm : m < 2 * fractionSize) :
    units (s * fractionSize + m) = m * 2 ^ s := by
  have hexponent : (s * fractionSize + m) / fractionSize - 1 = s := by
    simp only [fractionSize] at *
    omega
  rw [units_eq, hexponent, Nat.add_sub_cancel_left]

/-- A significand in units of its exponent, up to the next power of two. -/
theorem units_place {s m : ℕ} (hs : s = 0 ∨ fractionSize ≤ m) (hm : m ≤ 2 * fractionSize) :
    units (s * fractionSize + m) = m * 2 ^ s := by
  rcases Nat.lt_or_eq_of_le hm with hlt | rfl
  · exact units_significand hs hlt
  · have hnext : s * fractionSize + 2 * fractionSize = (s + 1) * fractionSize + fractionSize := by ring
    rw [hnext, units_significand (.inr (Nat.le_refl _)) (by decide), Nat.pow_succ]
    ring

theorem exists_place (word : ℕ) :
    ∃ s m, word = s * fractionSize + m ∧ (s = 0 ∨ fractionSize ≤ m) ∧ m < 2 * fractionSize := by
  refine ⟨word / fractionSize - 1, word - (word / fractionSize - 1) * fractionSize, ?_⟩
  simp only [fractionSize] at *
  omega

theorem units_strictMono : StrictMono units := by
  apply strictMono_nat_of_lt_succ
  intro word
  obtain ⟨s, m, rfl, hs, hm⟩ := exists_place word
  have hnext : s = 0 ∨ fractionSize ≤ m + 1 := hs.imp_right Nat.le_succ_of_le
  rw [Nat.add_assoc, units_place hs (Nat.le_of_lt hm), units_place hnext hm]
  exact Nat.mul_lt_mul_of_pos_right (Nat.lt_succ_self m) (Nat.two_pow_pos s)

/-! ## Rounding to whole numbers -/

section Quotients

variable {num den : ℕ} (hd : 0 < den)
include hd

/-- The quotient is at most a half away from the whole number, and a half only from an even one. -/
theorem roundHalfEven_bounds (num : ℕ) :
    2 * roundHalfEven num den * den ≤ 2 * num + den ∧
      2 * num ≤ 2 * roundHalfEven num den * den + den ∧
      (2 * roundHalfEven num den * den = 2 * num + den ∨
        2 * num = 2 * roundHalfEven num den * den + den → Even (roundHalfEven num den)) := by
  have hdiv : den * (num / den) + num % den = num := Nat.div_add_mod num den
  have hmod : num % den < den := Nat.mod_lt num hd
  have hlow : 2 * (num / den) * den = 2 * (den * (num / den)) := by ring
  have hhigh : 2 * (num / den + 1) * den = 2 * (den * (num / den)) + 2 * den := by ring
  rw [Nat.even_iff]
  simp only [roundHalfEven]
  split
  · next h =>
    rw [hlow]
    omega
  · next h =>
    rw [hhigh]
    omega

theorem le_roundHalfEven {k : ℕ} (h : k * den ≤ num) : k ≤ roundHalfEven num den := by
  obtain ⟨-, hge, -⟩ := roundHalfEven_bounds hd num
  apply Nat.le_of_lt_succ
  apply Nat.lt_of_mul_lt_mul_right (a := den)
  rw [Nat.succ_eq_add_one]
  linarith

theorem roundHalfEven_le {k : ℕ} (h : num < k * den) : roundHalfEven num den ≤ k := by
  obtain ⟨hle, -, -⟩ := roundHalfEven_bounds hd num
  apply Nat.le_of_lt_succ
  apply Nat.lt_of_mul_lt_mul_right (a := den)
  rw [Nat.succ_eq_add_one]
  linarith

end Quotients

/-! ## Between the midpoints -/

/-- A quotient in units lies between the midpoints to all magnitudes below and above a word, however large
these are, and on a midpoint only if the word is even. -/
structure Centred (num den word : ℕ) : Prop where
  below {other : ℕ} (h : other < word) : (units other + units word) * den ≤ 2 * num
  above {other : ℕ} (h : word < other) : 2 * num ≤ (units word + units other) * den
  even_below {other : ℕ} (h : other < word) (he : (units other + units word) * den = 2 * num) : Even word
  even_above {other : ℕ} (h : word < other) (he : (units word + units other) * den = 2 * num) : Even word

section Places

variable {s m other : ℕ}

theorem units_below_place (hs : s = 0 ∨ fractionSize < m) (hm : m ≤ 2 * fractionSize)
    (h : other < s * fractionSize + m) : units other + 2 ^ s ≤ m * 2 ^ s := by
  obtain ⟨k, rfl⟩ : ∃ k, m = k + 1 := by
    apply Nat.exists_eq_add_one.mpr
    rcases hs with rfl | hs <;> omega
  have hplace : units (s * fractionSize + k) = k * 2 ^ s :=
    units_place (hs.imp_right Nat.le_of_lt_succ) (Nat.le_of_succ_le hm)
  have hle : units other ≤ units (s * fractionSize + k) := units_strictMono.monotone (by omega)
  rw [hplace] at hle
  rw [Nat.add_mul, Nat.one_mul]
  exact Nat.add_le_add_right hle _

theorem units_above_place (hs : s = 0 ∨ fractionSize ≤ m) (hm : m ≤ 2 * fractionSize)
    (h : s * fractionSize + m < other) : m * 2 ^ s + 2 ^ s ≤ units other := by
  have hle : units (s * fractionSize + m + 1) ≤ units other := units_strictMono.monotone h
  apply Nat.le_trans _ hle
  rw [← Nat.add_one_mul]
  rcases Nat.lt_or_eq_of_le hm with hlt | rfl
  · rw [Nat.add_assoc, units_place (hs.imp_right Nat.le_succ_of_le) hlt]
  · -- The next exponent begins, whose steps are twice as large.
    have hnext : s * fractionSize + 2 * fractionSize + 1 =
        (s + 1) * fractionSize + (fractionSize + 1) := by
      ring
    rw [hnext, units_place (.inr (Nat.le_succ _)) (by decide), Nat.pow_succ]
    nlinarith [Nat.two_pow_pos s]

end Places

/-- Rounding to a significand. The quotient has the exponent `s`, or a smaller one if that is zero. -/
theorem centred_place {num den s : ℕ} (hd : 0 < den)
    (hlow : s = 0 ∨ fractionSize * (den * 2 ^ s) ≤ num)
    (hhigh : num < 2 * fractionSize * (den * 2 ^ s)) :
    Centred num den (s * fractionSize + roundHalfEven num (den * 2 ^ s)) := by
  have hpos : 0 < den * 2 ^ s := Nat.mul_pos hd (Nat.two_pow_pos s)
  have hm := roundHalfEven_le hpos hhigh
  have hs := hlow.imp_right (le_roundHalfEven hpos)
  obtain ⟨hle, hge, heven⟩ := roundHalfEven_bounds hpos num
  generalize roundHalfEven num (den * 2 ^ s) = m at *
  have hword : units (s * fractionSize + m) = m * 2 ^ s := units_place hs hm
  have hparity : Even m → Even (s * fractionSize + m) := by
    intro h
    exact Even.add (Even.mul_left (by decide) s) h
  have hbelow {other : ℕ} (h : other < s * fractionSize + m) :
      (units other + m * 2 ^ s) * den + den * 2 ^ s ≤ 2 * m * (den * 2 ^ s) ∨
        (units other + m * 2 ^ s) * den < 2 * num := by
    by_cases hstep : s = 0 ∨ fractionSize < m
    · left
      have hu := Nat.mul_le_mul_right den (units_below_place hstep hm h)
      linarith
    · -- The word is a power of two, below which the steps are smaller; but the quotient is above it.
      right
      obtain ⟨hne, hnot⟩ := not_or.mp hstep
      obtain rfl : m = fractionSize := Nat.le_antisymm (Nat.not_lt.mp hnot) (hs.resolve_left hne)
      have hu : units other < fractionSize * 2 ^ s := hword ▸ units_strictMono h
      have hn := hlow.resolve_left hne
      have hd' := Nat.mul_lt_mul_of_pos_right hu hd
      linarith
  have habove {other : ℕ} (h : s * fractionSize + m < other) :
      2 * m * (den * 2 ^ s) + den * 2 ^ s ≤ (m * 2 ^ s + units other) * den := by
    have hu := Nat.mul_le_mul_right den (units_above_place hs hm h)
    linarith
  constructor
  · intro other h
    rw [hword]
    rcases hbelow h with hb | hb
    · linarith
    · exact Nat.le_of_lt hb
  · intro other h
    rw [hword]
    linarith [habove h]
  · intro other h he
    rw [hword] at he
    apply hparity
    apply heven
    left
    rcases hbelow h with hb | hb
    · linarith
    · exact absurd he (Nat.ne_of_lt hb)
  · intro other h he
    rw [hword] at he
    apply hparity
    apply heven
    right
    linarith [habove h]

theorem centred_nearest {den : ℕ} (hd : 0 < den) (num : ℕ) :
    ∃ word, Centred (num * unitsPerOne) den word ∧ nearest num den = min word infinityWord := by
  have hsize : fractionSize = 2 ^ 52 := by decide
  refine ⟨_, centred_place hd ?_ ?_, rfl⟩
  · by_cases hs : (num * unitsPerOne / den).log2 - 52 = 0
    · exact .inl hs
    · right
      have hne : num * unitsPerOne / den ≠ 0 := by
        intro h0
        rw [h0] at hs
        exact hs rfl
      have hlog : (num * unitsPerOne / den).log2 = 52 + ((num * unitsPerOne / den).log2 - 52) := by
        omega
      have hle := Nat.log2_self_le hne
      rw [hlog, Nat.pow_add, ← hsize, Nat.le_div_iff_mul_le hd] at hle
      linarith
  · have hlt : num * unitsPerOne / den <
        2 * fractionSize * 2 ^ ((num * unitsPerOne / den).log2 - 52) := by
      have hexponent : (num * unitsPerOne / den).log2 + 1 ≤
          53 + ((num * unitsPerOne / den).log2 - 52) := by
        omega
      calc num * unitsPerOne / den
          < 2 ^ ((num * unitsPerOne / den).log2 + 1) := Nat.lt_log2_self
        _ ≤ 2 ^ (53 + ((num * unitsPerOne / den).log2 - 52)) :=
            Nat.pow_le_pow_right Nat.two_pos hexponent
        _ = 2 * fractionSize * 2 ^ ((num * unitsPerOne / den).log2 - 52) := by
            rw [Nat.pow_add, hsize]
            rfl
    rw [Nat.div_lt_iff_lt_mul hd] at hlt
    linarith

/-! ## The nearest magnitude -/

/-- The value of a magnitude word. That of infinity is the power of two after the finite magnitudes. -/
def value (word : ℕ) : ℚ :=
  units word / unitsPerOne

/-- Of all magnitudes that of a word is nearest to `x`, and of two that are equally near, it is the one
with the even word. -/
structure RoundsTo (x : ℚ) (word : ℕ) : Prop where
  le_infinityWord : word ≤ infinityWord
  dist_le {other : ℕ} (ho : other ≤ infinityWord) : |x - value word| ≤ |x - value other|
  even {other : ℕ} (ho : other ≤ infinityWord) (hne : other ≠ word)
    (htie : |x - value word| = |x - value other|) : Even word

theorem value_strictMono : StrictMono value := by
  intro v w h
  have hpos : (0 : ℚ) < unitsPerOne := by exact_mod_cast unitsPerOne_pos
  exact div_lt_div_of_pos_right (by exact_mod_cast units_strictMono h) hpos

section Distances

variable {a b x : ℚ} (h : a < b)
include h

theorem abs_sub_right_le_iff : |x - b| ≤ |x - a| ↔ a + b ≤ 2 * x := by
  constructor
  · intro hle
    by_contra hlt
    have hb : |x - b| = b - x := by rw [abs_of_neg (by linarith), neg_sub]
    have ha : |x - a| < b - x := abs_lt.mpr ⟨by linarith, by linarith⟩
    linarith
  · intro hle
    rw [abs_of_pos (by linarith : 0 < x - a)]
    exact abs_le.mpr ⟨by linarith, by linarith⟩

theorem abs_sub_left_le_iff : |x - a| ≤ |x - b| ↔ 2 * x ≤ a + b := by
  have hneg := abs_sub_right_le_iff (x := -x) (neg_lt_neg h)
  rw [neg_sub_neg, neg_sub_neg, abs_sub_comm a, abs_sub_comm b] at hneg
  rw [hneg]
  constructor <;> intro <;> linarith

end Distances

section Midpoints

variable {x : ℚ} {word : ℕ}

/-- It is enough to compare with the midpoints. -/
theorem roundsTo_of_midpoints (hword : word ≤ infinityWord)
    (below : ∀ other < word, value other + value word ≤ 2 * x ∧
      (value other + value word = 2 * x → Even word))
    (above : ∀ other ≤ infinityWord, word < other → 2 * x ≤ value word + value other ∧
      (2 * x = value word + value other → Even word)) : RoundsTo x word where
  le_infinityWord := hword
  dist_le := by
    intro other ho
    rcases Nat.lt_trichotomy other word with h | rfl | h
    · exact (abs_sub_right_le_iff (value_strictMono h)).mpr (below other h).1
    · exact le_rfl
    · exact (abs_sub_left_le_iff (value_strictMono h)).mpr (above other ho h).1
  even := by
    intro other ho hne htie
    rcases Nat.lt_or_gt_of_ne hne with h | h
    · have hmid := (abs_sub_left_le_iff (value_strictMono h)).mp htie.ge
      exact (below other h).2 (le_antisymm (below other h).1 hmid)
    · have hmid := (abs_sub_right_le_iff (value_strictMono h)).mp htie.ge
      exact (above other ho h).2 (le_antisymm (above other ho h).1 hmid)

/-- Everything from the midpoint below infinity on is rounded to it. -/
theorem roundsTo_infinityWord (h : ∀ other < infinityWord, value other + value infinityWord < 2 * x) :
    RoundsTo x infinityWord := by
  apply roundsTo_of_midpoints (Nat.le_refl _)
  · intro other ho
    exact ⟨(h other ho).le, fun he => absurd he (h other ho).ne⟩
  · intro other ho hlt
    exact absurd ho (Nat.not_le.mpr hlt)

end Midpoints

section Quotients

variable {num den word : ℕ} (hd : 0 < den)
include hd

theorem value_add_le_iff {v w : ℕ} :
    value v + value w ≤ 2 * (num / den : ℚ) ↔ (units v + units w) * den ≤ 2 * (num * unitsPerOne) := by
  have hpos : (0 : ℚ) < unitsPerOne := by exact_mod_cast unitsPerOne_pos
  have hden : (0 : ℚ) < den := by exact_mod_cast hd
  rw [value, value, ← add_div, ← mul_div_assoc, div_le_div_iff₀ hpos hden, mul_assoc]
  norm_cast

theorem le_value_add_iff {v w : ℕ} :
    2 * (num / den : ℚ) ≤ value v + value w ↔ 2 * (num * unitsPerOne) ≤ (units v + units w) * den := by
  have hpos : (0 : ℚ) < unitsPerOne := by exact_mod_cast unitsPerOne_pos
  have hden : (0 : ℚ) < den := by exact_mod_cast hd
  rw [value, value, ← add_div, ← mul_div_assoc, div_le_div_iff₀ hden hpos, mul_assoc]
  norm_cast

theorem Centred.roundsTo (h : Centred (num * unitsPerOne) den word) (hle : word ≤ infinityWord) :
    RoundsTo (num / den) word := by
  apply roundsTo_of_midpoints hle
  · intro other ho
    refine ⟨(value_add_le_iff hd).mpr (h.below ho), ?_⟩
    intro he
    exact h.even_below ho (Nat.le_antisymm (h.below ho) ((le_value_add_iff hd).mp he.ge))
  · intro other _ ho
    refine ⟨(le_value_add_iff hd).mpr (h.above ho), ?_⟩
    intro he
    exact h.even_above ho (Nat.le_antisymm ((value_add_le_iff hd).mp he.ge) (h.above ho))

/-- What is nearest to a word beyond infinity is rounded to infinity. -/
theorem Centred.roundsTo_infinityWord (h : Centred (num * unitsPerOne) den word)
    (hlt : infinityWord < word) : RoundsTo (num / den) infinityWord := by
  apply Binary64.roundsTo_infinityWord
  intro other ho
  have hmid := (value_add_le_iff hd).mpr (h.below (ho.trans hlt))
  linarith [value_strictMono hlt]

theorem roundsTo_nearest (num : ℕ) : RoundsTo (num / den) (nearest num den) := by
  obtain ⟨word, hc, hn⟩ := centred_nearest hd num
  rw [hn]
  rcases Nat.lt_or_ge infinityWord word with hgt | hle
  · rw [Nat.min_eq_right (Nat.le_of_lt hgt)]
    exact hc.roundsTo_infinityWord hd hgt
  · rw [Nat.min_eq_left hle]
    exact hc.roundsTo hd hle

end Quotients

theorem RoundsTo.not_lt {x : ℚ} {v w : ℕ} (hv : RoundsTo x v) (hw : RoundsTo x w) : ¬ v < w := by
  intro h
  have htie : |x - value v| = |x - value w| :=
    le_antisymm (hv.dist_le hw.le_infinityWord) (hw.dist_le hv.le_infinityWord)
  have hv₂ := hv.even hw.le_infinityWord (Nat.ne_of_gt h) htie
  have hw₂ := hw.even hv.le_infinityWord (Nat.ne_of_lt h) htie.symm
  -- Between two even words there is an odd one, which would be nearer.
  have hbetween : v + 1 < w := by
    rw [Nat.even_iff] at hv₂ hw₂
    omega
  have hmid := (abs_sub_right_le_iff (value_strictMono h)).mp htie.ge
  have hnext := hv.dist_le (Nat.le_of_lt (hbetween.trans_le hw.le_infinityWord))
  rw [abs_sub_left_le_iff (value_strictMono (Nat.lt_succ_self v))] at hnext
  linarith [value_strictMono hbetween]

/-- There is only one magnitude to round to. -/
theorem RoundsTo.unique {x : ℚ} {v w : ℕ} (hv : RoundsTo x v) (hw : RoundsTo x w) : v = w :=
  Nat.le_antisymm (Nat.not_lt.mp (hw.not_lt hv)) (Nat.not_lt.mp (hv.not_lt hw))

theorem roundsTo_value {word : ℕ} (h : word ≤ infinityWord) : RoundsTo (value word) word := by
  have hn := roundsTo_nearest unitsPerOne_pos (units word)
  rwa [nearest_units h] at hn

theorem value_zero : value 0 = 0 := by
  have hunits : units 0 = 0 := by decide
  rw [value, hunits, Nat.cast_zero, zero_div]

theorem cast_unitsPerOne : (unitsPerOne : ℚ) = 2 ^ unitExponent := by
  rw [unitsPerOne, Nat.pow_eq, Nat.cast_pow, Nat.cast_ofNat]

theorem value_one : value 1 = (2 ^ unitExponent)⁻¹ := by
  have hunits : units 1 = 1 := by decide
  rw [value, hunits, cast_unitsPerOne, Nat.cast_one, one_div]

theorem value_infinityWord : value infinityWord = 2 ^ 1024 := by
  have hunits : units infinityWord = 2 ^ 52 * 2 ^ 2046 := by
    have hexponent : infinityWord / fractionSize - 1 = 2046 := by decide
    have hsignificand : infinityWord - 2046 * fractionSize = 2 ^ 52 := by decide
    rw [units_eq, hexponent, hsignificand]
  have hsum : 52 + 2046 = 1024 + unitExponent := by rw [unitExponent_eq]
  rw [value, hunits, ← pow_add, hsum, cast_unitsPerOne, Nat.cast_pow, Nat.cast_ofNat, pow_add,
    mul_div_cancel_right₀ _ (by positivity)]

end Binary64

namespace Decimal

open Binary64
open Text (decimal decimal_ne_nil length_decimal_le lt_length_decimal)

/-- The number that is written. -/
def value (d : Decimal) : ℚ :=
  d.coefficient * 10 ^ d.exponent

theorem value_eq (d : Decimal) : d.value = d.numerator / d.denominator := by
  obtain ⟨n, e⟩ := d
  obtain ⟨k, rfl | rfl⟩ := e.eq_nat_or_neg
  · simp [value, numerator, denominator]
  · simp [value, numerator, denominator, div_eq_mul_inv]

/-- A number is below ten to the power of its order. -/
theorem value_lt (d : Decimal) : d.value < 10 ^ d.order := by
  have hc : d.coefficient < 10 ^ (decimal d.coefficient).length := by
    apply Nat.lt_of_not_le
    intro hle
    have hpos := List.length_pos_iff.mpr (decimal_ne_nil d.coefficient)
    exact Nat.lt_irrefl _ (lt_length_decimal hpos hle)
  rw [value, order, zpow_add₀ (by decide), zpow_natCast]
  exact mul_lt_mul_of_pos_right (by exact_mod_cast hc) (by positivity)

/-- And it is at least a tenth of it. -/
theorem le_value {d : Decimal} (hc : d.coefficient ≠ 0) : 10 ^ (d.order - 1) ≤ d.value := by
  obtain ⟨k, hk⟩ := Nat.exists_eq_add_one_of_ne_zero
    (Nat.ne_of_gt (List.length_pos_iff.mpr (decimal_ne_nil d.coefficient)))
  have hle : 10 ^ k ≤ d.coefficient := by
    apply Nat.le_of_not_lt
    intro hlt
    rcases Nat.eq_zero_or_pos k with rfl | hpos
    · exact hc (Nat.lt_one_iff.mp hlt)
    · have := length_decimal_le hpos hlt
      omega
  have horder : d.order - 1 = k + d.exponent := by
    rw [order, hk]
    omega
  rw [value, horder, zpow_add₀ (by decide), zpow_natCast]
  exact mul_le_mul_of_nonneg_right (by exact_mod_cast hle) (by positivity)

theorem two_pow_le {k : ℕ} (h : k ≤ 3 * 400) : (2 : ℚ) ^ k ≤ 10 ^ 400 := by
  calc (2 : ℚ) ^ k
      ≤ 2 ^ (3 * 400) := pow_le_pow_right₀ (by norm_num) h
    _ = (2 ^ 3) ^ 400 := pow_mul 2 3 400
    _ ≤ 10 ^ 400 := pow_le_pow_left₀ (by norm_num) (by norm_num) 400

/-- An order above the bound of `nearest` is one beyond infinity. -/
theorem infinityWord_le_value {d : Decimal} (hc : d.coefficient ≠ 0) (h : 400 < d.order) :
    Binary64.value infinityWord ≤ d.value := by
  calc Binary64.value infinityWord
      = 2 ^ 1024 := value_infinityWord
    _ ≤ 10 ^ 400 := two_pow_le (by decide)
    _ = 10 ^ (400 : ℤ) := (zpow_natCast 10 400).symm
    _ ≤ 10 ^ (d.order - 1) := zpow_le_zpow_right₀ (by norm_num) (by omega)
    _ ≤ d.value := le_value hc

/-- One below the bound is less than half of the least magnitude. -/
theorem value_lt_value_one {d : Decimal} (h : d.order < -400) : 2 * d.value < Binary64.value 1 := by
  have hunit : unitExponent ≤ 3 * 400 := by
    rw [unitExponent_eq]
    decide
  calc 2 * d.value
      < 2 * 10 ^ d.order := mul_lt_mul_of_pos_left (value_lt d) (by norm_num)
    _ ≤ 10 ^ d.order * 10 := by linarith [zpow_pos (by norm_num : (0 : ℚ) < 10) d.order]
    _ = 10 ^ (d.order + 1) := (zpow_add_one₀ (by norm_num) d.order).symm
    _ ≤ 10 ^ (-400 : ℤ) := zpow_le_zpow_right₀ (by norm_num) (by omega)
    _ = (10 ^ 400)⁻¹ := by rw [zpow_neg]; rfl
    _ ≤ (2 ^ unitExponent)⁻¹ := inv_anti₀ (by positivity) (two_pow_le hunit)
    _ = Binary64.value 1 := value_one.symm

/-- A decimal number is rounded to the nearest double, however large or small it is. -/
theorem roundsTo_nearest (d : Decimal) : RoundsTo d.value d.nearest := by
  rw [nearest]
  split_ifs with hc hlarge hsmall
  · have hz : d.value = Binary64.value 0 := by
      rw [value, hc, value_zero, Nat.cast_zero, zero_mul]
    rw [hz]
    exact roundsTo_value (Nat.zero_le _)
  · apply roundsTo_infinityWord
    intro other ho
    linarith [value_strictMono ho, infinityWord_le_value hc hlarge]
  · apply roundsTo_of_midpoints (Nat.zero_le _)
    · intro other ho
      exact absurd ho (Nat.not_lt_zero other)
    · intro other _ ho
      have hlt : 2 * d.value < Binary64.value 0 + Binary64.value other := by
        rw [value_zero, zero_add]
        exact (value_lt_value_one hsmall).trans_le (value_strictMono.monotone ho)
      exact ⟨hlt.le, fun he => absurd he hlt.ne⟩
  · rw [value_eq]
    exact Binary64.roundsTo_nearest (Nat.pow_pos (by decide)) d.numerator

end Decimal

end LiteralBridge
