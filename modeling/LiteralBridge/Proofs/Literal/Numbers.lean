import LiteralBridge.Proofs.Literal.Readers

/-! # Reading numbers

`readSigned_eq_ok` says that the reader of numbers accepts exactly the numbers of the grammar. A
numeral is followed by neither a letter, a digit, an underscore nor a point, so each of its parts ends
where the reader stops. -/

namespace LiteralBridge.Literal

open Text Grammar

/-! ## Parts of a numeral -/

theorem continuesNumber_of_isDigit {c : Char} (h : c.isDigit = true) :
    continuesNumber c = true := by
  have ha : c.isAlphanum = true := by simp [Char.isAlphanum, h]
  simp [continuesNumber, isAlphanumeric_of_isAlphanum ha]

theorem mem_spanDigits {text : List Char} : ∀ c ∈ (spanDigits text).1, c.isDigit = true :=
  fun c hc => List.all_eq_true.mp List.all_takeWhile c hc

theorem spanDigits_append_eq (text : List Char) : (spanDigits text).1 ++ (spanDigits text).2 = text :=
  List.takeWhile_append_dropWhile

theorem spanDigits_append {digits next : List Char} (h : ∀ c ∈ digits, c.isDigit = true)
    (hs : Stops Char.isDigit next) : spanDigits (digits ++ next) = (digits, next) := by
  rw [spanDigits, takeWhile_append_of_stops h hs, dropWhile_append_of_stops h hs]

theorem fraction_of_readFraction (text : List Char) :
    ∃ token, Fraction (readFraction text).1 token ∧ text = token ++ (readFraction text).2 := by
  unfold readFraction
  split
  · next rest =>
    refine ⟨'.' :: (spanDigits rest).1, .digits mem_spanDigits, ?_⟩
    rw [List.cons_append, spanDigits_append_eq]
  · exact ⟨[], .absent, rfl⟩

theorem readFraction_append {fraction : Option (List Char)} {token next : List Char}
    (h : Fraction fraction token) (hs : Stops (fun c => c.isDigit || c == '.') next) :
    readFraction (token ++ next) = (fraction, next) := by
  cases h with
  | absent =>
    cases next with
    | nil => rfl
    | cons c rest =>
      have hc : c ≠ '.' := by
        rintro rfl
        simp at hs
      simp [readFraction, hc]
  | digits h =>
    have hd : Stops Char.isDigit next := hs.mono (by simp +contextual)
    simp [readFraction, spanDigits_append h hd]

/-- The sign of an exponent, and the digits after it. -/
theorem exponent_of_readExponentSign {mark : Char} {text digits next : List Char}
    (hm : mark = 'e' ∨ mark = 'E') (hd : Digits digits)
    (h : (readExponentSign text).2 = digits ++ next) :
    ∃ token, Exponent (some ((readExponentSign text).1, digits)) token ∧
      mark :: text = token ++ next := by
  unfold readExponentSign at h ⊢
  split at h
  · next rest => exact ⟨_, .signed hm hd, by simpa using h⟩
  · next rest => exact ⟨_, .signed hm hd, by simpa using h⟩
  · exact ⟨_, .unsigned hm hd, by simpa using h⟩

theorem exponent_of_readExponent {text next : List Char} {exponent : Option (Bool × List Char)}
    (h : readExponent text = .ok (exponent, next)) :
    ∃ token, Exponent exponent token ∧ text = token ++ next := by
  cases text with
  | nil =>
    obtain ⟨rfl, rfl⟩ := Prod.mk.inj (Except.ok.inj h)
    exact ⟨[], .absent, rfl⟩
  | cons c rest =>
    rw [readExponent] at h
    by_cases hm : c = 'e' ∨ c = 'E'
    · rw [if_pos hm] at h
      by_cases he : (spanDigits (readExponentSign rest).2).1.isEmpty = true
      · simp [he] at h
      · simp only [he, Bool.false_eq_true, if_false, Except.ok.injEq, Prod.mk.injEq] at h
        obtain ⟨rfl, rfl⟩ := h
        have hd : Digits (spanDigits (readExponentSign rest).2).1 :=
          ⟨by simpa using he, mem_spanDigits⟩
        exact exponent_of_readExponentSign hm hd (spanDigits_append_eq _).symm
    · rw [if_neg hm] at h
      obtain ⟨rfl, rfl⟩ := Prod.mk.inj (Except.ok.inj h)
      exact ⟨[], .absent, rfl⟩

theorem readExponent_append {exponent : Option (Bool × List Char)} {token next : List Char}
    (h : Exponent exponent token) (hs : Stops continuesNumber next) :
    readExponent (token ++ next) = .ok (exponent, next) := by
  have hspan : Stops Char.isDigit next := hs.mono fun c => continuesNumber_of_isDigit
  cases h with
  | absent =>
    cases next with
    | nil => rfl
    | cons c rest =>
      have hc : ¬(c = 'e' ∨ c = 'E') := by
        rintro (rfl | rfl)
        · exact absurd (stops_cons.mp hs) (by decide)
        · exact absurd (stops_cons.mp hs) (by decide)
      simp [readExponent, hc]
  | @unsigned mark digits hm hd =>
    have hsign : readExponentSign (digits ++ next) = (false, digits ++ next) := by
      obtain ⟨hne, hall⟩ := hd
      cases digits with
      | nil => simp at hne
      | cons d rest =>
        have hdigit := hall d (List.mem_cons_self ..)
        have hm : d ≠ '-' ∧ d ≠ '+' := by
          constructor
          · rintro rfl
            exact absurd hdigit (by decide)
          · rintro rfl
            exact absurd hdigit (by decide)
        simp [readExponentSign, hm]
    simp [readExponent, hm, hsign, spanDigits_append hd.2 hspan, hd.1]
  | @signed mark negative digits hm hd =>
    have hsign : readExponentSign ((if negative then '-' else '+') :: (digits ++ next)) =
        (negative, digits ++ next) := by
      cases negative <;> rfl
    simp [readExponent, hm, hsign, spanDigits_append hd.2 hspan, hd.1]

/-! ## Numerals -/

/-- A numeral that was read is one of the grammar, and nothing that follows it could continue it. -/
theorem writes_of_readNumeral {text next : List Char} {n : Numeral}
    (h : readNumeral text = .ok (n, next)) :
    ∃ token, Writes token n ∧ text = token ++ next ∧ Stops continuesNumber next := by
  rw [readNumeral] at h
  by_cases hw : (spanDigits text).1.isEmpty = true
  · simp [hw] at h
  simp only [hw, Bool.false_eq_true, if_false] at h
  cases he : readExponent (readFraction (spanDigits text).2).2 with
  | error stop => simp [he] at h
  | ok read =>
    obtain ⟨exponent, after⟩ := read
    simp only [he] at h
    by_cases hc : after.head?.any continuesNumber = true
    · simp [hc] at h
    simp only [hc, Bool.false_eq_true, if_false, Except.ok.injEq, Prod.mk.injEq] at h
    obtain ⟨rfl, rfl⟩ := h
    obtain ⟨fraction, hf, htf⟩ := fraction_of_readFraction (spanDigits text).2
    obtain ⟨mark, hm, htm⟩ := exponent_of_readExponent he
    refine ⟨(spanDigits text).1 ++ (fraction ++ mark), ⟨⟨by simpa using hw, mem_spanDigits⟩,
      fraction, mark, hf, hm, rfl⟩, ?_, stops_iff_any.mpr hc⟩
    calc text = (spanDigits text).1 ++ (spanDigits text).2 := (spanDigits_append_eq text).symm
      _ = (spanDigits text).1 ++ (fraction ++ (mark ++ after)) := by rw [htf, htm]
      _ = _ := by simp

/-- An exponent or its absence ends the digits before it. -/
theorem stops_exponent {exponent : Option (Bool × List Char)} {token next : List Char}
    (h : Exponent exponent token) (hs : Stops continuesNumber next) :
    Stops (fun c => c.isDigit || c == '.') (token ++ next) := by
  have mark {c : Char} (hm : c = 'e' ∨ c = 'E') : (c.isDigit || c == '.') = false := by
    rcases hm with rfl | rfl <;> decide
  cases h with
  | absent =>
    refine hs.mono fun c hc => ?_
    rcases Bool.or_eq_true_iff.mp hc with hd | hp
    · exact continuesNumber_of_isDigit hd
    · simp [continuesNumber, hp]
  | unsigned hm => exact stops_cons.mpr (mark hm)
  | signed hm => exact stops_cons.mpr (mark hm)

/-- A fraction or its absence ends the digits before it. -/
theorem stops_fraction {fraction : Option (List Char)} {token next : List Char}
    (h : Fraction fraction token) (hs : Stops (fun c => c.isDigit || c == '.') next) :
    Stops Char.isDigit (token ++ next) := by
  cases h with
  | absent => exact hs.mono (by simp +contextual)
  | digits => exact stops_cons.mpr (by decide)

theorem readNumeral_of_writes {token next : List Char} {n : Numeral} (h : Writes token n)
    (hs : Stops continuesNumber next) : readNumeral (token ++ next) = .ok (n, next) := by
  obtain ⟨hw, fraction, exponent, hf, he, rfl⟩ := h
  have hstop := stops_exponent he hs
  have hspan := spanDigits_append hw.2 (stops_fraction hf hstop)
  have hempty : n.whole.isEmpty = false := by simpa using hw.1
  have hc : next.head?.any continuesNumber = false := by
    simpa using stops_iff_any.mp hs
  simp only [List.append_assoc, readNumeral, hspan, hempty, Bool.false_eq_true, if_false,
    readFraction_append hf hstop, readExponent_append he hs, hc]

/-- Without a fraction and an exponent there are only the digits before the point. -/
theorem Grammar.Writes.eq_whole {token : List Char} {n : Numeral} (h : Writes token n)
    (hf : n.isFloat = false) : token = n.whole := by
  obtain ⟨-, fraction, exponent, hfraction, hexponent, rfl⟩ := h
  obtain ⟨whole, fraction?, exponent?⟩ := n
  simp only [Numeral.isFloat, Bool.or_eq_false_iff, Option.isSome_eq_false_iff,
    Option.isNone_iff_eq_none] at hf
  obtain ⟨rfl, rfl⟩ := hf
  cases hfraction
  cases hexponent
  simp

/-! ## Numbers -/

theorem hasLeadingZeros_eq_false {n : Numeral} :
    n.hasLeadingZeros = false ↔ (n.whole.head? = some '0' → ∀ c ∈ n.whole, c = '0') := by
  obtain ⟨whole, fraction, exponent⟩ := n
  cases whole with
  | nil => simp [Numeral.hasLeadingZeros]
  | cons c rest =>
    by_cases hc : c = '0'
    · simp [Numeral.hasLeadingZeros, hc]
    · simp [Numeral.hasLeadingZeros, hc]

theorem literal_of_isFloat {n : Numeral} (negative : Bool) (h : n.isFloat = true) :
    n.literal negative = .ok (.float (.ofWord negative n.decimal.nearest)) := by
  simp [Numeral.literal, h]

/-- A numeral without fraction and exponent denotes an integer, or nothing. -/
theorem literal_eq_ok_of_not_isFloat {n : Numeral} {negative : Bool} {literal : Literal}
    (h : n.isFloat = false) :
    n.literal negative = .ok literal ↔
      (n.whole.head? = some '0' → ∀ c ∈ n.whole, c = '0') ∧ FitsInt (signed negative n.whole) ∧
        literal = .int (signed negative n.whole) := by
  rw [← hasLeadingZeros_eq_false]
  by_cases hz : n.hasLeadingZeros = true
  · simp [Numeral.literal, h, hz]
  · by_cases hf : FitsInt (signed negative n.whole)
    · have hf' := hf
      rw [signed] at hf'
      simp [Numeral.literal, h, hz, signed, hf', eq_comm]
    · have hf' := hf
      rw [signed] at hf'
      simp [Numeral.literal, h, hz, hf, hf']

theorem readNumber_eq_ok {start text next : List Char} {negative : Bool} {literal : Literal} :
    readNumber start negative text = .ok (literal, next) ↔
      ∃ n, readNumeral text = .ok (n, next) ∧ n.literal negative = .ok literal := by
  rw [readNumber]
  cases hn : readNumeral text with
  | error stop => simp
  | ok read =>
    obtain ⟨n, after⟩ := read
    cases hl : n.literal negative with
    | error reason =>
      simp only [hl, reduceCtorEq, Except.ok.injEq, Prod.mk.injEq, false_iff, not_exists, not_and,
        and_imp]
      rintro m rfl -
      simp [hl]
    | ok found =>
      simp only [hl, Except.ok.injEq, Prod.mk.injEq]
      constructor
      · rintro ⟨rfl, rfl⟩
        exact ⟨n, ⟨rfl, rfl⟩, hl⟩
      · rintro ⟨m, ⟨rfl, rfl⟩, hm⟩
        exact ⟨Except.ok.inj (hl.symm.trans hm), rfl⟩

theorem number_of_readNumber {start text next : List Char} {negative : Bool} {literal : Literal}
    (h : readNumber start negative text = .ok (literal, next)) :
    Number (minus negative ++ text) literal next := by
  obtain ⟨n, hn, hl⟩ := readNumber_eq_ok.mp h
  obtain ⟨token, hw, rfl, hs⟩ := writes_of_readNumeral hn
  cases hf : n.isFloat with
  | true =>
    rw [literal_of_isFloat negative hf, Except.ok.injEq] at hl
    exact hl ▸ .float hw hf hs
  | false =>
    obtain ⟨hz, hfit, rfl⟩ := (literal_eq_ok_of_not_isFloat hf).mp hl
    obtain rfl := hw.eq_whole hf
    exact .integer hw.1 hz hfit hs

/-- Digits alone are read as the integer they write. -/
theorem readNumber_of_digits (start : List Char) (negative : Bool) {digits next : List Char}
    (hd : Digits digits) (zeros : digits.head? = some '0' → ∀ c ∈ digits, c = '0')
    (fits : FitsInt (signed negative digits)) (stop : Stops continuesNumber next) :
    readNumber start negative (digits ++ next) = .ok (.int (signed negative digits), next) := by
  have hw : Writes digits ⟨digits, Option.none, Option.none⟩ :=
    ⟨hd, [], [], .absent, .absent, by simp⟩
  exact readNumber_eq_ok.mpr ⟨_, readNumeral_of_writes hw stop,
    (literal_eq_ok_of_not_isFloat rfl).mpr ⟨zeros, fits, rfl⟩⟩

theorem readNumber_of_writes (start : List Char) (negative : Bool) {n : Numeral}
    {token next : List Char} (h : Writes token n) (hf : n.isFloat = true)
    (stop : Stops continuesNumber next) :
    readNumber start negative (token ++ next) =
      .ok (.float (.ofWord negative n.decimal.nearest), next) :=
  readNumber_eq_ok.mpr ⟨n, readNumeral_of_writes h stop, literal_of_isFloat negative hf⟩

end LiteralBridge.Literal
