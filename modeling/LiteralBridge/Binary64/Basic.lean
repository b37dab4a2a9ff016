/-!
# Double precision numbers as words

A double precision number is a sign and a 63-bit magnitude word: eleven bits of exponent over
fifty-two bits of fraction. Every finite magnitude is a whole number of units of 2⁻¹⁰⁷⁴, which is
how this library computes with them: exactly, in natural numbers, rounding once at the end.
-/

namespace LiteralBridge

/-- A double precision number by the parts of its word. -/
structure Binary64 where
  /-- The sign bit. -/
  negative : Bool
  /-- The other sixty-three bits. -/
  magnitude : Nat
  magnitude_lt : magnitude < 0x8000000000000000
deriving DecidableEq

namespace Binary64

/-- The magnitude word of infinity; words above it are not numbers. -/
def infinityWord : Nat := 0x7ff0000000000000

def ofBits (bits : UInt64) : Binary64 where
  negative := 0x8000000000000000 ≤ bits.toNat
  magnitude := bits.toNat % 0x8000000000000000
  magnitude_lt := Nat.mod_lt _ (by decide)

def toBits (x : Binary64) : UInt64 :=
  UInt64.ofNat ((if x.negative then 0x8000000000000000 else 0) + x.magnitude)

/-- The number with a sign and a magnitude word that is at most infinity's. -/
def ofWord (negative : Bool) (word : Nat) : Binary64 where
  negative := negative
  magnitude := min word infinityWord
  magnitude_lt := Nat.lt_of_le_of_lt (Nat.min_le_right _ _) (by decide)

def zero : Binary64 := ofWord false 0

def infinity (negative : Bool) : Binary64 := ofWord negative infinityWord

/-- The value that is not a number, in the form this library writes it. -/
def nan : Binary64 where
  negative := false
  magnitude := 0x7ff8000000000000
  magnitude_lt := by decide

/-- Neither infinite nor without a value. -/
def isFinite (x : Binary64) : Bool := x.magnitude < infinityWord

def isNaN (x : Binary64) : Bool := infinityWord < x.magnitude

def neg (x : Binary64) : Binary64 := { x with negative := !x.negative }

/-- Numerical equality: what is not a number equals nothing, and the two zeros are equal. -/
def numEq (x y : Binary64) : Bool :=
  !x.isNaN && !y.isNaN && (x == y || (x.magnitude == 0 && y.magnitude == 0))

/-! ## Magnitudes as whole numbers of units -/

/-- A unit is two to the power of minus this number. -/
@[irreducible] def unitExponent : Nat := 1074

def unitsPerOne : Nat := Nat.pow 2 unitExponent

/-- The number of values of the fraction, which is also the first bit of a significand. -/
def fractionSize : Nat := 0x10000000000000

/-- The units in a finite magnitude. With an exponent of zero or one the word itself counts them. -/
def units (word : Nat) : Nat :=
  if word < 2 * fractionSize then word
  else (fractionSize + word % fractionSize) * Nat.pow 2 (word / fractionSize - 1)

/-- A quotient rounded to a whole number, a half to the even neighbour. -/
def roundHalfEven (num den : Nat) : Nat :=
  let low := num / den
  let twice := 2 * (num % den)
  if twice < den ∨ (twice = den ∧ low % 2 = 0) then low else low + 1

/-- The magnitude word nearest to `num / den`. The quotient in units decides by how many bits it
exceeds a significand; overflow gives the word of infinity. -/
def nearest (num den : Nat) : Nat :=
  let scaled := num * unitsPerOne
  let shift := (scaled / den).log2 - 52
  min (shift * fractionSize + roundHalfEven scaled (den * Nat.pow 2 shift)) infinityWord

def ofInt (i : Int) : Binary64 :=
  ofWord (i < 0) (nearest i.natAbs 1)

/-- The magnitude of a product. -/
def mulWord (a b : Nat) : Nat :=
  nearest (units a * units b) (unitsPerOne * unitsPerOne)

/-- The magnitude of a quotient by a magnitude that is not zero. -/
def divWord (a b : Nat) : Nat :=
  nearest (units a) (units b)

/-! ## Laws -/

theorem pow_pos {base : Nat} (h : 0 < base) {n : Nat} : 0 < Nat.pow base n :=
  Nat.pow_pos h

theorem unitExponent_eq : unitExponent = 1074 := by
  unfold unitExponent
  rfl

theorem unitsPerOne_pos : 0 < unitsPerOne :=
  pow_pos (by decide)

theorem ofBits_toBits (x : Binary64) : ofBits x.toBits = x := by
  obtain ⟨negative, magnitude, h⟩ := x
  have hb : (UInt64.ofNat ((if negative then 0x8000000000000000 else 0) + magnitude)).toNat =
      (if negative then 0x8000000000000000 else 0) + magnitude := by
    rw [UInt64.toNat_ofNat']
    apply Nat.mod_eq_of_lt
    split <;> omega
  simp only [ofBits, toBits, hb, mk.injEq]
  cases negative with
  | false =>
    simp only [Bool.false_eq_true, if_false, Nat.zero_add]
    exact ⟨decide_eq_false (Nat.not_le.mpr h), Nat.mod_eq_of_lt h⟩
  | true =>
    simp only [if_true]
    exact ⟨decide_eq_true (Nat.le_add_right ..), by rw [Nat.add_mod_left, Nat.mod_eq_of_lt h]⟩

theorem roundHalfEven_of_dvd {num den : Nat} (hd : 0 < den) (h : den ∣ num) :
    roundHalfEven num den = num / den := by
  simp [roundHalfEven, Nat.mod_eq_zero_of_dvd h, hd]

/-- Rounding looks at the value of a quotient only. -/
theorem roundHalfEven_mul_left {k : Nat} (hk : 0 < k) (num den : Nat) :
    roundHalfEven (k * num) (k * den) = roundHalfEven num den := by
  have hm : 2 * (k * (num % den)) = k * (2 * (num % den)) := by
    rw [Nat.mul_left_comm]
  simp only [roundHalfEven, Nat.mul_div_mul_left _ _ hk, Nat.mul_mod_mul_left, hm,
    Nat.mul_lt_mul_left hk, Nat.mul_right_inj (Nat.ne_of_gt hk)]

/-- The nearest magnitude depends on the value of a quotient only. -/
theorem nearest_mul_left {k : Nat} (hk : 0 < k) (num den : Nat) :
    nearest (k * num) (k * den) = nearest num den := by
  simp only [nearest, Nat.mul_assoc, Nat.mul_div_mul_left _ _ hk, roundHalfEven_mul_left hk]

/-- The units of a magnitude with an exponent above one: its significand, shifted. -/
theorem units_of_le {word : Nat} (h : 2 * fractionSize ≤ word) :
    ∃ s r, r < fractionSize ∧ word = (s + 1) * fractionSize + r ∧
      units word = (fractionSize + r) * Nat.pow 2 s := by
  have hpos : 0 < fractionSize := by decide
  have hq : 2 ≤ word / fractionSize := (Nat.le_div_iff_mul_le hpos).mpr h
  refine ⟨word / fractionSize - 1, word % fractionSize, Nat.mod_lt _ hpos, ?_, ?_⟩
  · rw [Nat.sub_add_cancel (by omega), Nat.mul_comm]
    exact (Nat.div_add_mod word fractionSize).symm
  · rw [units, if_neg (Nat.not_lt.mpr h)]

theorem log2_significand {r : Nat} (hr : r < fractionSize) (s : Nat) :
    ((fractionSize + r) * Nat.pow 2 s).log2 = 52 + s := by
  have hpos : 0 < Nat.pow 2 s := Nat.two_pow_pos s
  have hsize : Nat.pow 2 52 = fractionSize := by decide
  have hne : (fractionSize + r) * Nat.pow 2 s ≠ 0 := Nat.ne_of_gt (Nat.mul_pos (by omega) hpos)
  refine (Nat.log2_eq_iff hne).mpr ⟨?_, ?_⟩
  · refine Nat.le_trans (Nat.le_of_eq (Nat.pow_add 2 52 s)) (Nat.mul_le_mul_right _ ?_)
    exact hsize ▸ Nat.le_add_right ..
  · have hlt : fractionSize + r < Nat.pow 2 53 :=
      Nat.lt_of_lt_of_le (Nat.add_lt_add_left hr _) (by decide)
    rw [show 52 + s + 1 = 53 + s by omega]
    exact Nat.lt_of_lt_of_le (Nat.mul_lt_mul_of_pos_right hlt hpos)
      (Nat.le_of_eq (Nat.pow_add 2 53 s).symm)

/-- A magnitude word is its own nearest one. -/
theorem nearest_units {word : Nat} (h : word ≤ infinityWord) :
    nearest (units word) unitsPerOne = word := by
  have hdiv : units word * unitsPerOne / unitsPerOne = units word :=
    Nat.mul_div_cancel _ unitsPerOne_pos
  have hscale (s : Nat) : roundHalfEven (units word * unitsPerOne) (unitsPerOne * Nat.pow 2 s) =
      roundHalfEven (units word) (Nat.pow 2 s) := by
    rw [Nat.mul_comm (units word), roundHalfEven_mul_left unitsPerOne_pos]
  simp only [nearest, hdiv, hscale]
  by_cases hs : word < 2 * fractionSize
  · have hu : units word = word := if_pos hs
    have hl : word.log2 - 52 = 0 := by
      by_cases h0 : word = 0
      · rw [h0]
        rfl
      · have : word.log2 < 53 := (Nat.log2_lt h0).mpr hs
        omega
    rw [hu, hl, roundHalfEven_of_dvd (by decide) (Nat.one_dvd word), Nat.zero_mul, Nat.zero_add]
    exact (congrArg (min · infinityWord) (Nat.div_one word)).trans (Nat.min_eq_left h)
  · obtain ⟨s, r, hr, hw, hu⟩ := units_of_le (Nat.not_lt.mp hs)
    have hpos : 0 < Nat.pow 2 s := Nat.two_pow_pos s
    have hround : roundHalfEven (units word) (Nat.pow 2 s) = fractionSize + r := by
      rw [hu, roundHalfEven_of_dvd hpos (Nat.dvd_mul_left ..), Nat.mul_div_cancel _ hpos]
    have hlog : (units word).log2 - 52 = s := by
      rw [hu, log2_significand hr, Nat.add_sub_cancel_left]
    rw [hlog, hround, show s * fractionSize + (fractionSize + r) = word by
      rw [hw, Nat.succ_mul, Nat.add_assoc], Nat.min_eq_left h]

end Binary64

end LiteralBridge
