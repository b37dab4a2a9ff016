import LiteralBridge.Proofs.Binary64.Scaling
import LiteralBridge.Proofs.Literal.Readers
import LiteralBridge.Proofs.Literal.Tree

/-! # Floats in the text of literals

The text of a finite float is a numeral of the grammar that denotes the float (`scalar_renderFloat`
covers the other floats too, which are written as calls). Whatever the format, a numeral is the
significant digits of a decimal number with a point among them or beside them. -/

namespace LiteralBridge.Literal

open Text Grammar Binary64

/-! ## Numerals of decimal numbers -/

/-- The text is a numeral for a float, and the number it writes rounds like `d`. -/
def WritesFloat (text : List Char) (d : Decimal) : Prop :=
  ∃ n, Writes text n ∧ n.isFloat = true ∧ n.decimal.nearest = d.nearest

theorem isDigit_of_mem_replicate {k : Nat} {c : Char} (h : c ∈ List.replicate k '0') :
    c.isDigit = true := by
  rw [(List.mem_replicate.mp h).2]
  decide

/-- A numeral with a point and no exponent, whose digits are those of `d` apart from zeros. -/
theorem writesFloat_of_padded {whole fraction digits : List Char} {e : Int} (before after : Nat)
    (hd : Digits digits) (hw : whole ≠ [])
    (h : whole ++ fraction = List.replicate before '0' ++ (digits ++ List.replicate after '0'))
    (he : e - after = -fraction.length) :
    WritesFloat (whole ++ '.' :: fraction) ⟨ofDecimal digits, e⟩ := by
  have hall : ∀ c ∈ whole ++ fraction, c.isDigit = true := by
    intro c hc
    rw [h, List.mem_append, List.mem_append] at hc
    rcases hc with hc | hc | hc
    · exact isDigit_of_mem_replicate hc
    · exact hd.2 c hc
    · exact isDigit_of_mem_replicate hc
  refine ⟨⟨whole, some fraction, Option.none⟩, ⟨⟨hw, fun c hc => ?_⟩, '.' :: fraction, [],
    .digits fun c hc => ?_, .absent, by simp⟩, rfl, ?_⟩
  · exact hall c (List.mem_append_left _ hc)
  · exact hall c (List.mem_append_right _ hc)
  · have hn : (Numeral.mk whole (some fraction) Option.none).decimal =
        ⟨ofDecimal (whole ++ fraction), e - after⟩ := by
      simp [Numeral.decimal, Numeral.scale, he]
    rw [hn, h, Decimal.nearest_padded]

/-- All digits stand after the point. -/
theorem positional_of_nonpos {digits : List Char} (hd : digits ≠ []) {point : Int}
    (hp : point ≤ 0) :
    positional digits point = ['0'] ++ '.' :: (List.replicate (-point).toNat '0' ++ digits) := by
  have hbefore : point.toNat = 0 := by omega
  simp [positional, hbefore, hd]

/-- The point stands among the digits. -/
theorem positional_of_lt {digits : List Char} {point : Int} (hp : 0 < point)
    (hl : point.toNat < digits.length) :
    positional digits point = digits.take point.toNat ++ '.' :: digits.drop point.toNat := by
  have hzeros : (-point).toNat = 0 := by omega
  have hover : point.toNat - digits.length = 0 := by omega
  have hw : digits.take point.toNat ≠ [] := by
    rw [← List.length_pos_iff, List.length_take]
    omega
  have hf : digits.drop point.toNat ≠ [] := by
    rw [← List.length_pos_iff, List.length_drop]
    omega
  simp only [positional, hover, hzeros, List.replicate_zero, List.append_nil, List.nil_append,
    List.isEmpty_iff, if_neg hw, if_neg hf]

/-- All digits stand before the point. -/
theorem positional_of_le {digits : List Char} (hd : digits ≠ []) {point : Int} (hp : 0 < point)
    (hl : digits.length ≤ point.toNat) :
    positional digits point =
      (digits ++ List.replicate (point.toNat - digits.length) '0') ++ '.' :: ['0'] := by
  have hzeros : (-point).toNat = 0 := by omega
  have hw : digits ++ List.replicate (point.toNat - digits.length) '0' ≠ [] := by
    simp [hd]
  simp only [positional, hzeros, List.replicate_zero, List.nil_append, List.isEmpty_iff,
    List.take_of_length_le hl, List.drop_eq_nil_of_le hl, if_neg hw, if_true]

theorem writesFloat_positional {digits : List Char} (hd : Digits digits) (point : Int) :
    WritesFloat (positional digits point) ⟨ofDecimal digits, point - digits.length⟩ := by
  by_cases hp : point ≤ 0
  · rw [positional_of_nonpos hd.1 hp]
    apply writesFloat_of_padded ((-point).toNat + 1) 0 hd
    · simp
    · simp [List.replicate_succ]
    · simp only [List.length_append, List.length_replicate]
      omega
  have hpos : 0 < point := by omega
  by_cases hl : point.toNat < digits.length
  · rw [positional_of_lt hpos hl]
    apply writesFloat_of_padded 0 0 hd
    · rw [← List.length_pos_iff, List.length_take]
      omega
    · simp
    · simp only [List.length_drop]
      omega
  · have hle := Nat.not_lt.mp hl
    rw [positional_of_le hd.1 hpos hle]
    apply writesFloat_of_padded 0 (point.toNat - digits.length + 1) hd
    · simp [hd.1]
    · simp [List.replicate_succ']
    · simp only [List.length_singleton]
      omega

/-- The exponent that a format writes after its mark. -/
theorem exists_exponent (plus : Bool) (e : Int) :
    ∃ exponent, Exponent (some exponent)
        ('e' :: ((if plus && 0 ≤ e then ['+'] else []) ++ decimalInt e)) ∧
      ∀ whole fraction, (Numeral.mk whole fraction (some exponent)).scale = e := by
  have hd (k : Nat) : Digits (decimal k) := ⟨decimal_ne_nil k, fun c hc => isDigit_of_mem_decimal hc⟩
  cases e with
  | ofNat k =>
    refine ⟨(false, decimal k), ?_, fun _ _ => ?_⟩
    · cases plus with
      | false => exact .unsigned (.inl rfl) (hd k)
      | true => exact .signed (.inl rfl) (hd k)
    · simp [Numeral.scale, ofDecimal_decimal]
  | negSucc k =>
    refine ⟨(true, decimal (k + 1)), ?_, fun _ _ => ?_⟩
    · have hneg : ¬ (0 ≤ Int.negSucc k) := by omega
      simp only [hneg, decide_false, Bool.and_false, Bool.false_eq_true, if_false]
      exact .signed (.inl rfl) (hd (k + 1))
    · simp only [Numeral.scale, ofDecimal_decimal]
      rfl

theorem writesFloat_exponential {digits : List Char} (hd : Digits digits) (plus : Bool) (e : Int) :
    WritesFloat (exponential plus digits e) ⟨ofDecimal digits, e + 1 - digits.length⟩ := by
  obtain ⟨exponent, hx, hscale⟩ := exists_exponent plus e
  obtain ⟨hne, hall⟩ := hd
  cases digits with
  | nil => exact absurd rfl hne
  | cons first rest =>
    have hw : Digits [first] := by
      refine ⟨by simp, fun c hc => hall c ?_⟩
      simp_all
    have hrest : ∀ c ∈ rest, c.isDigit = true := fun c hc => hall c (List.mem_cons_of_mem _ hc)
    cases rest with
    | nil =>
      refine ⟨⟨[first], Option.none, some exponent⟩, ⟨hw, _, _, .absent, hx, ?_⟩, rfl, ?_⟩
      · simp [exponential]
      · have he : e + 1 - ([first] : List Char).length = e := by
          simp
        rw [he]
        simp [Numeral.decimal, hscale]
    | cons second more =>
      refine ⟨⟨[first], some (second :: more), some exponent⟩,
        ⟨hw, _, _, .digits hrest, hx, ?_⟩, rfl, ?_⟩
      · simp [exponential]
      · have he : e + 1 - (first :: second :: more).length = e - (second :: more).length := by
          simp only [List.length_cons]
          omega
        rw [he]
        simp [Numeral.decimal, hscale]

/-- In whatever format, the text of a decimal number is a numeral for it. -/
theorem writesFloat_layout (format : Format) (d : Decimal) : WritesFloat (layout format d) d := by
  have hd : Digits (significantDigits d.coefficient) :=
    ⟨significantDigits_ne_nil _, fun c hc => isDigit_of_mem_significantDigits hc⟩
  have hn := Decimal.nearest_significantDigits d
  rw [layout]
  split
  · obtain ⟨n, hw, hf, he⟩ := writesFloat_positional hd d.order
    exact ⟨n, hw, hf, he.trans hn⟩
  · obtain ⟨n, hw, hf, he⟩ := writesFloat_exponential hd format.plusInExponent (d.order - 1)
    rw [Int.sub_add_cancel] at he
    exact ⟨n, hw, hf, he.trans hn⟩

/-! ## Numbers and calls -/

/-- A finite float is written as a number that denotes it. -/
theorem number_renderFinite (format : Format) {x : Binary64} (hx : x.isFinite = true)
    {next : List Char} (hs : Stops continuesNumber next) :
    Number (x.renderFinite format ++ next) (.float x) next := by
  have hlt : x.magnitude < infinityWord := by simpa [isFinite] using hx
  obtain ⟨text, ht, n, hw, hf, hn⟩ : ∃ text, x.renderFinite format = minus x.negative ++ text ∧
      ∃ n, Writes text n ∧ n.isFloat = true ∧ n.decimal.nearest = x.magnitude := by
    refine ⟨_, rfl, ?_⟩
    by_cases hz : x.magnitude = 0
    · rw [if_pos hz, hz]
      exact ⟨⟨['0'], some ['0'], Option.none⟩,
        ⟨⟨by decide, List.all_eq_true.mp rfl⟩, _, _, .digits (List.all_eq_true.mp rfl), .absent,
          rfl⟩, rfl, by decide⟩
    · rw [if_neg hz]
      obtain ⟨n, hw, hf, hn⟩ := writesFloat_layout format (.shortest format.tiesToEven x.magnitude)
      exact ⟨n, hw, hf, hn.trans (Decimal.nearest_shortest _ (Nat.le_of_lt hlt))⟩
  have hword : ofWord x.negative n.decimal.nearest = x := by
    obtain ⟨negative, magnitude, _⟩ := x
    simp only [ofWord, hn, mk.injEq, true_and]
    exact Nat.min_eq_left (Nat.le_of_lt hlt)
  have hnumber : Number (minus x.negative ++ (text ++ next)) (.float x) next :=
    hword ▸ .float hw hf hs
  rwa [← List.append_assoc, ← ht] at hnumber

/-- A call whose string is written with single quotes. -/
theorem name_floatCall (argument : String) {x : Binary64}
    (hplain : argument.toList.all (fun c => c != '\'' && c != '\\' && !isLineBreak c) = true)
    (hx : SpecialFloat argument.toList x) (next : List Char) :
    Name ("float".toList ++ '(' :: '\'' :: (argument.toList ++ '\'' :: ')' :: next)) (.float x)
      next := by
  have inside {cs : List Char}
      (h : cs.all (fun c => c != '\'' && c != '\\' && !isLineBreak c) = true) :
      Inside '\'' (cs ++ '\'' :: ')' :: next) cs (')' :: next) := by
    induction cs with
    | nil => exact .close
    | cons c cs ih =>
      simp only [List.all_cons, Bool.and_eq_true, bne_iff_ne, Bool.not_eq_true'] at h
      obtain ⟨⟨⟨hq, hb⟩, hl⟩, hrest⟩ := h
      exact .plain hq hb hl (ih hrest)
  exact .floatCall (.refl _) ⟨'\'', _, .inr rfl, rfl, inside hplain⟩ (.refl _) hx

/-- Every float is written as a literal that denotes it, whichever NaN it was. -/
theorem scalar_renderFloat (x : Binary64) {next : List Char} (hs : Stops continuesNumber next) :
    Scalar (renderFloat x ++ next) (.float x.canonical) next := by
  unfold renderFloat
  split
  · next hnan =>
    rw [Binary64.canonical, if_pos hnan]
    exact .name (name_floatCall "nan" (by decide) (.nan (.inl rfl) (by decide)) next)
  split
  · next hnan hfinite =>
    rw [Binary64.canonical, if_neg hnan]
    exact .number (number_renderFinite hostFormat hfinite hs)
  · next hnan hfinite =>
    have hx : x = infinity x.negative := by
      obtain ⟨negative, magnitude, _⟩ := x
      simp only [isNaN, isFinite, decide_eq_true_eq] at hnan hfinite
      simp only [infinity, ofWord, mk.injEq, true_and, Nat.min_self]
      omega
    rw [Binary64.canonical, if_neg hnan]
    split
    · next hneg =>
      rw [hx, hneg]
      exact .name (name_floatCall "-inf" (by decide)
        (.negativeInfinity (.inl rfl) (by decide)) next)
    · next hneg =>
      rw [hx, Bool.eq_false_iff.mpr hneg]
      exact .name (name_floatCall "inf" (by decide)
        (.infinity (.inl rfl) (.inl (by decide))) next)

end LiteralBridge.Literal
