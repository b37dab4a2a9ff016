import LiteralBridge.Binary64.Render

/-! # The digits of a decimal number

Zeros at the end of a coefficient can move into the exponent, so a decimal number rounds to the same
double as its significant digits do (`nearest_significantDigits`), with any zeros before and after
them (`nearest_padded`). -/

namespace LiteralBridge

open Text

/-! ## Zeros around digits -/

theorem Text.decimal_mul_pow {n : Nat} (hn : 0 < n) (k : Nat) :
    decimal (n * Nat.pow 10 k) = decimal n ++ List.replicate k '0' := by
  induction k with
  | zero => simp
  | succ k ih =>
    have hpos : 0 < n * Nat.pow 10 k := Nat.mul_pos hn (Nat.pow_pos (by decide))
    have hstep := Nat.toDigits_append_toDigits (by decide : 1 < 10) hpos (by decide : 0 < 10)
    have hpow : n * Nat.pow 10 (k + 1) = 10 * (n * Nat.pow 10 k) + 0 := by
      have hp : Nat.pow 10 (k + 1) = Nat.pow 10 k * 10 := rfl
      rw [hp, ← Nat.mul_assoc, Nat.mul_comm, Nat.add_zero]
    rw [hpow, decimal, ← hstep, List.replicate_succ', ← List.append_assoc, ← ih]
    rfl

theorem Text.ofDecimal_padded (before after : Nat) (digits : List Char) :
    ofDecimal (List.replicate before '0' ++ (digits ++ List.replicate after '0')) =
      ofDecimal digits * Nat.pow 10 after := by
  simp only [ofDecimal, Nat.ofDigitChars_append, Nat.ofDigitChars_replicate_zero, Nat.mul_zero]
  exact Nat.mul_comm ..

theorem Text.dropZeros_append (digits : List Char) :
    ∃ zeros, digits = dropZeros digits ++ List.replicate zeros '0' := by
  induction digits with
  | nil => exact ⟨0, rfl⟩
  | cons c rest ih =>
    obtain ⟨zeros, h⟩ := ih
    cases hd : dropZeros rest with
    | nil =>
      rw [hd, List.nil_append] at h
      by_cases hc : c = '0'
      · refine ⟨zeros + 1, ?_⟩
        simp only [dropZeros, hd, if_pos hc, List.nil_append, List.replicate_succ]
        rw [← h, hc]
      · refine ⟨zeros, ?_⟩
        simp only [dropZeros, hd, if_neg hc, List.cons_append, List.nil_append]
        rw [← h]
    | cons d more =>
      refine ⟨zeros, ?_⟩
      simp only [dropZeros, hd, List.cons_append]
      rw [← List.cons_append, ← hd, ← h]

/-- The significant digits lack nothing but zeros at the end. -/
theorem Binary64.decimal_eq_significantDigits (n : Nat) :
    ∃ zeros, decimal n = significantDigits n ++ List.replicate zeros '0' := by
  obtain ⟨zeros, h⟩ := dropZeros_append (decimal n)
  unfold significantDigits
  split
  · next hd =>
    -- Nothing but zeros: the number is zero, whose one digit is kept.
    have hn : n = 0 := by
      have hv := ofDecimal_padded zeros 0 []
      rw [hd, List.nil_append] at h
      rw [List.replicate_zero, List.append_nil, List.append_nil, ← h, ofDecimal_decimal] at hv
      rw [hv]
      rfl
    exact ⟨0, by rw [hn]; rfl⟩
  · exact ⟨zeros, h⟩

theorem Binary64.significantDigits_ne_nil (n : Nat) : significantDigits n ≠ [] := by
  unfold significantDigits
  split
  · simp
  · assumption

theorem Binary64.isDigit_of_mem_significantDigits {n : Nat} {c : Char}
    (h : c ∈ significantDigits n) : c.isDigit = true := by
  obtain ⟨zeros, he⟩ := decimal_eq_significantDigits n
  apply isDigit_of_mem_decimal (n := n)
  rw [he]
  exact List.mem_append_left _ h

/-! ## Powers of ten -/

namespace Decimal

open Binary64

theorem order_scaled {n : Nat} (hn : 0 < n) (k : Nat) (e : Int) :
    (Decimal.mk (n * Nat.pow 10 k) (e - k)).order = (Decimal.mk n e).order := by
  simp only [order, decimal_mul_pow hn, List.length_append, List.length_replicate]
  omega

/-- A power of ten can move from the coefficient to the exponent. -/
theorem nearest_scaled (n k : Nat) (e : Int) :
    (Decimal.mk (n * Nat.pow 10 k) (e - k)).nearest = (Decimal.mk n e).nearest := by
  rcases Nat.eq_zero_or_pos n with rfl | hn
  · simp [nearest]
  have hne : n * Nat.pow 10 k ≠ 0 := Nat.ne_of_gt (Nat.mul_pos hn (Nat.pow_pos (by decide)))
  -- Both the numerator and the denominator grow by ten to the power `j`.
  obtain ⟨j, hj⟩ : ∃ j, (-(e - k)).toNat = j + (-e).toNat := ⟨(-(e - k)).toNat - (-e).toNat, by omega⟩
  have hk : k + (e - k).toNat = j + e.toNat := by omega
  have add (a b : Nat) : Nat.pow 10 (a + b) = Nat.pow 10 a * Nat.pow 10 b := Nat.pow_add 10 a b
  have hnum : (Decimal.mk (n * Nat.pow 10 k) (e - k)).numerator =
      Nat.pow 10 j * (Decimal.mk n e).numerator := by
    simp only [numerator]
    rw [Nat.mul_assoc, ← add, hk, add, Nat.mul_left_comm]
  have hden : (Decimal.mk (n * Nat.pow 10 k) (e - k)).denominator =
      Nat.pow 10 j * (Decimal.mk n e).denominator := by
    simp only [denominator]
    rw [hj, add]
  have hpos : 0 < Nat.pow 10 j := Nat.pow_pos (by decide)
  simp only [nearest, order_scaled hn, if_neg hne, if_neg (Nat.ne_of_gt hn), hnum, hden,
    nearest_mul_left hpos]

theorem nearest_padded (before after : Nat) (digits : List Char) (e : Int) :
    (Decimal.mk (ofDecimal (List.replicate before '0' ++ (digits ++ List.replicate after '0')))
      (e - after)).nearest = (Decimal.mk (ofDecimal digits) e).nearest := by
  rw [ofDecimal_padded, nearest_scaled]

theorem nearest_significantDigits (d : Decimal) :
    (Decimal.mk (ofDecimal (significantDigits d.coefficient))
      (d.order - (significantDigits d.coefficient).length)).nearest = d.nearest := by
  obtain ⟨n, e⟩ := d
  obtain ⟨zeros, h⟩ := decimal_eq_significantDigits n
  have hn : n = ofDecimal (List.replicate 0 '0' ++
      (significantDigits n ++ List.replicate zeros '0')) := by
    rw [← h]
    exact (ofDecimal_decimal n).symm
  have ho : (Decimal.mk n e).order - (significantDigits n).length = e + zeros := by
    simp only [order]
    rw [h, List.length_append, List.length_replicate]
    omega
  have hp := nearest_padded 0 zeros (significantDigits n) (e + zeros)
  rw [← hn, Int.add_sub_cancel] at hp
  rw [ho, hp]

end Decimal

end LiteralBridge
