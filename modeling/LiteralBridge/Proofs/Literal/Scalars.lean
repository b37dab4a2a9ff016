import LiteralBridge.Proofs.Literal.Names
import LiteralBridge.Proofs.Literal.Numbers

/-! # Reading literals without brackets

The first character decides what is read. `readLevel_none_eq_ok` says that a reader without a level
left for brackets accepts exactly the scalars of the grammar. -/

namespace LiteralBridge.Literal

open Text Grammar

/-! ## First characters -/

def isBracket (c : Char) : Bool :=
  c == '[' || c == '(' || c == '{'

def isQuote (c : Char) : Bool :=
  c == '"' || c == '\''

/-- The characters that a literal can begin with. -/
def beginsLiteral (c : Char) : Bool :=
  isBracket c || isQuote c || c == '-' || c.isDigit || isNameStart c

theorem toNat_of_isDigit {c : Char} (h : c.isDigit = true) : 48 ≤ c.toNat ∧ c.toNat ≤ 57 :=
  Char.isDigit_iff_toNat.mp h

theorem toNat_of_isAlpha {c : Char} (h : c.isAlpha = true) : 65 ≤ c.toNat ∧ c.toNat ≤ 122 := by
  have range (low high : UInt32) (hl : 65 ≤ low.toNat) (hh : high.toNat ≤ 122)
      (h : c.val ≥ low ∧ c.val ≤ high) : 65 ≤ c.toNat ∧ c.toNat ≤ 122 :=
    ⟨Nat.le_trans hl (UInt32.le_iff_toNat_le.mp h.1),
      Nat.le_trans (UInt32.le_iff_toNat_le.mp h.2) hh⟩
  rcases Bool.or_eq_true_iff.mp h with h | h
  · exact range 'A'.val 'Z'.val (by decide) (by decide) (of_decide_eq_true h)
  · obtain ⟨hlow, hhigh⟩ := Bool.and_eq_true_iff.mp h
    exact range 'a'.val 'z'.val (by decide) (by decide)
      ⟨of_decide_eq_true hlow, of_decide_eq_true hhigh⟩

theorem isDigit_eq_false_of_isAlpha {c : Char} (h : c.isAlpha = true) : c.isDigit = false := by
  have ha := toNat_of_isAlpha h
  cases hd : c.isDigit with
  | false => rfl
  | true =>
    have hd := toNat_of_isDigit hd
    omega

/-- Brackets, quotes and the minus sign are neither letters nor digits. -/
theorem not_letter_of_mark {c : Char} (h : isBracket c = true ∨ isQuote c = true ∨ c = '-') :
    c.isAlpha = false ∧ c.isDigit = false ∧ isNameStart c = false := by
  simp only [isBracket, isQuote, Bool.or_eq_true, beq_iff_eq] at h
  rcases h with ((rfl | rfl) | rfl) | (rfl | rfl) | rfl <;> decide

/-- No literal begins with white space. -/
theorem isBlank_eq_false_of_beginsLiteral {c : Char} (h : beginsLiteral c = true) :
    isBlank c = false := by
  have ordinary (hl : 48 ≤ c.toNat ∧ c.toNat ≤ 122) : isBlank c = false := by
    simp only [isBlank, Bool.or_eq_false_iff, Bool.and_eq_false_iff, decide_eq_false_iff_not,
      beq_eq_false_iff_ne]
    omega
  simp only [beginsLiteral, isBracket, isQuote, isNameStart, Bool.or_eq_true, beq_iff_eq] at h
  rcases h with ((((((rfl | rfl) | rfl) | rfl | rfl) | rfl) | h) | h | rfl)
  any_goals decide
  · have hd := toNat_of_isDigit h
    exact ordinary (by omega)
  · have ha := toNat_of_isAlpha h
    exact ordinary (by omega)

theorem isQuote_iff {c : Char} : isQuote c = true ↔ c = '"' ∨ c = '\'' := by
  simp [isQuote]

theorem Grammar.Number.head {text next : List Char} {literal : Literal}
    (h : Number text literal next) : ∃ c rest, text = c :: rest ∧ (c = '-' ∨ c.isDigit = true) := by
  have digits {negative : Bool} {digits more : List Char} (hd : Digits digits) :
      ∃ c rest, minus negative ++ (digits ++ more) = c :: rest ∧ (c = '-' ∨ c.isDigit = true) := by
    cases negative with
    | true => exact ⟨'-', _, rfl, .inl rfl⟩
    | false =>
      obtain ⟨hne, hall⟩ := hd
      cases digits with
      | nil => simp at hne
      | cons d rest => exact ⟨d, _, rfl, .inr (hall d (List.mem_cons_self ..))⟩
  cases h with
  | integer hd => exact digits hd
  | float hw =>
    obtain ⟨hd, fraction, exponent, -, -, rfl⟩ := hw
    rw [List.append_assoc]
    exact digits hd

/-- The first character of a scalar tells which rule it is made by. -/
theorem Grammar.Scalar.cons_cases {c : Char} {rest next : List Char} {literal : Literal}
    (h : Scalar (c :: rest) literal next) :
    c.isAlpha = true ∧ Name (c :: rest) literal next ∨
      (c = '-' ∨ c.isDigit = true) ∧ (Number (c :: rest) literal next ∨
        c = '-' ∧ ∃ x, Name rest (.float x) next ∧ literal = .float x.neg) ∨
      isQuote c = true ∧ ∃ s, Quoted (c :: rest) s next ∧ literal = .str s := by
  cases h with
  | name h =>
    obtain ⟨d, tail, he, hd⟩ := h.head_isAlpha
    obtain ⟨rfl, rfl⟩ := List.cons.inj he
    exact .inl ⟨hd, h⟩
  | negated h => exact .inr (.inl ⟨.inl rfl, .inr ⟨rfl, _, h, rfl⟩⟩)
  | number h =>
    obtain ⟨d, tail, he, hd⟩ := h.head
    obtain ⟨rfl, rfl⟩ := List.cons.inj he
    exact .inr (.inl ⟨hd, .inl h⟩)
  | string h =>
    obtain ⟨quote, inside, hq, he, -⟩ := id h
    obtain ⟨rfl, rfl⟩ := List.cons.inj he
    exact .inr (.inr ⟨isQuote_iff.mpr hq, _, h, rfl⟩)

theorem Grammar.Scalar.ne_nil {text next : List Char} {literal : Literal}
    (h : Scalar text literal next) : text ≠ [] := by
  rintro rfl
  cases h with
  | name h =>
    obtain ⟨c, rest, he, -⟩ := h.head_isAlpha
    simp at he
  | number h =>
    obtain ⟨c, rest, he, -⟩ := h.head
    simp at he
  | string h =>
    obtain ⟨quote, inside, -, he, -⟩ := h
    simp at he

theorem Grammar.Scalar.head {text next : List Char} {literal : Literal}
    (h : Scalar text literal next) :
    ∃ c rest, text = c :: rest ∧ beginsLiteral c = true ∧ isBracket c = false := by
  cases text with
  | nil => exact absurd rfl h.ne_nil
  | cons c rest =>
    have hb : isBracket c = true → c.isAlpha = false ∧ c.isDigit = false ∧ isNameStart c = false :=
      fun hb => not_letter_of_mark (.inl hb)
    refine ⟨c, rest, rfl, ?_, ?_⟩
    · rcases h.cons_cases with ⟨ha, -⟩ | ⟨rfl | hd, -⟩ | ⟨hq, -⟩
      · simp [beginsLiteral, isNameStart, ha]
      · decide
      · simp [beginsLiteral, hd]
      · simp [beginsLiteral, hq]
    · cases hc : isBracket c with
      | false => rfl
      | true =>
        obtain ⟨ha, hd, -⟩ := hb hc
        rcases h.cons_cases with ⟨ha', -⟩ | ⟨rfl | hd', -⟩ | ⟨hq, -⟩
        · simp [ha] at ha'
        · simp [isBracket] at hc
        · simp [hd] at hd'
        · rcases isQuote_iff.mp hq with rfl | rfl <;> simp [isBracket] at hc

theorem Grammar.Number.length_lt {text next : List Char} {literal : Literal}
    (h : Number text literal next) : next.length < text.length := by
  cases h with
  | integer hd =>
    have hl := List.length_pos_iff.mpr hd.1
    simp only [List.length_append]
    omega
  | float hw =>
    obtain ⟨hd, fraction, exponent, -, -, rfl⟩ := hw
    have hl := List.length_pos_iff.mpr hd.1
    simp only [List.length_append]
    omega

theorem Grammar.Scalar.length_lt {text next : List Char} {literal : Literal}
    (h : Scalar text literal next) : next.length < text.length := by
  cases h with
  | name h => exact h.length_lt
  | negated h => exact Nat.lt_succ_of_lt h.length_lt
  | number h => exact h.length_lt
  | string h => exact h.length_lt

/-! ## Signs -/

theorem readNegatedName_eq_ok {start text next : List Char} {literal : Literal} :
    readNegatedName start text = .ok (literal, next) ↔
      ∃ x, Name text (.float x) next ∧ literal = .float x.neg := by
  constructor
  · intro h
    obtain ⟨⟨found, after⟩, hn, h⟩ := bind_eq_ok.mp h
    cases found with
    | float x =>
      obtain ⟨rfl, rfl⟩ := Prod.mk.inj (Except.ok.inj h)
      exact ⟨x, readName_eq_ok.mp hn, rfl⟩
    | _ => simp at h
  · rintro ⟨x, hn, rfl⟩
    rw [readNegatedName, readName_eq_ok.mpr hn, ok_bind]

/-- Digits after a sign are read as a number with that sign. -/
theorem readSigned_minus (negative : Bool) {digits more : List Char} (hd : Digits digits) :
    readSigned (minus negative ++ (digits ++ more)) =
      readNumber (minus negative ++ (digits ++ more)) negative (digits ++ more) := by
  obtain ⟨hne, hall⟩ := hd
  cases digits with
  | nil => simp at hne
  | cons d rest =>
    have hd := hall d (List.mem_cons_self ..)
    have ha : d.isAlpha = false := by
      cases ha : d.isAlpha with
      | false => rfl
      | true => simp [isDigit_eq_false_of_isAlpha ha] at hd
    cases negative with
    | true => simp [minus, readSigned, ha]
    | false =>
      have hm : d ≠ '-' := by
        rintro rfl
        exact absurd hd (by decide)
      simp [minus, readSigned, hm]

theorem readSigned_of_number {text next : List Char} {literal : Literal}
    (h : Number text literal next) : readSigned text = .ok (literal, next) := by
  cases h with
  | integer hd zeros fits stop =>
    rw [readSigned_minus _ hd]
    exact readNumber_of_digits _ _ hd zeros fits stop
  | float hw hf stop =>
    have hread (start : List Char) (negative : Bool) :=
      readNumber_of_writes start negative hw hf stop
    obtain ⟨hd, fraction, exponent, -, -, rfl⟩ := hw
    rw [List.append_assoc] at hread ⊢
    rw [readSigned_minus _ hd]
    exact hread _ _

theorem readSigned_eq_ok {text next : List Char} {literal : Literal} :
    readSigned text = .ok (literal, next) ↔
      Number text literal next ∨
        ∃ rest x, text = '-' :: rest ∧ Name rest (.float x) next ∧ literal = .float x.neg := by
  constructor
  · intro h
    unfold readSigned at h
    split at h
    · next rest =>
      split at h
      · obtain ⟨x, hn, rfl⟩ := readNegatedName_eq_ok.mp h
        exact .inr ⟨rest, x, rfl, hn, rfl⟩
      · exact .inl (number_of_readNumber h)
    · exact .inl (number_of_readNumber h)
  · rintro (h | ⟨rest, x, rfl, hn, rfl⟩)
    · exact readSigned_of_number h
    · obtain ⟨c, tail, rfl, hc⟩ := hn.head_isAlpha
      simp only [readSigned, List.head?_cons, Option.any_some, hc, if_true]
      exact readNegatedName_eq_ok.mpr ⟨x, hn, rfl⟩

/-! ## Scalars -/

/-- Where no bracket stands, only scalars are accepted, whatever levels are left. -/
theorem scalar_of_readLevel {limit bound : Nat} {item? : Option (Reader Literal)}
    {text rest next : List Char} {c : Char} {literal : Literal} (hs : skipBlank text = c :: rest)
    (hb : isBracket c = false)
    (h : readLevel limit bound item? text = .ok (literal, next)) :
    Scalar (c :: rest) literal next := by
  have hb' : ¬(c = '[' ∨ c = '(' ∨ c = '{') := by
    simpa [isBracket, and_assoc] using hb
  simp only [readLevel, hs, if_neg hb'] at h
  by_cases hq : c = '"' ∨ c = '\''
  · rw [if_pos hq] at h
    obtain ⟨⟨s, after⟩, hr, hok⟩ := bind_eq_ok.mp h
    obtain ⟨rfl, rfl⟩ := Prod.mk.inj (Except.ok.inj hok)
    exact .string ((readString_eq_ok hq).mp hr)
  rw [if_neg hq] at h
  by_cases hn : c = '-' ∨ c.isDigit = true
  · rw [if_pos hn] at h
    rcases readSigned_eq_ok.mp h with h | ⟨tail, x, he, hx, rfl⟩
    · exact .number h
    · obtain ⟨rfl, rfl⟩ := List.cons.inj he
      exact .negated hx
  rw [if_neg hn] at h
  by_cases ha : isNameStart c = true
  · rw [if_pos ha] at h
    exact .name (readName_eq_ok.mp h)
  · simp [ha] at h

theorem readLevel_of_scalar (limit bound : Nat) (item? : Option (Reader Literal))
    {text rest next : List Char} {c : Char} {literal : Literal} (hs : skipBlank text = c :: rest)
    (h : Scalar (c :: rest) literal next) :
    readLevel limit bound item? text = .ok (literal, next) := by
  obtain ⟨d, tail, he, -, hb⟩ := h.head
  obtain ⟨rfl, rfl⟩ := List.cons.inj he
  have hb' : ¬(c = '[' ∨ c = '(' ∨ c = '{') := by
    simpa [isBracket, and_assoc] using hb
  simp only [readLevel, hs, if_neg hb']
  rcases h.cons_cases with ⟨ha, hn⟩ | ⟨hm, hn⟩ | ⟨hq, s, hs, rfl⟩
  · have hq : ¬(c = '"' ∨ c = '\'') := fun hq => by
      simp [(not_letter_of_mark (.inr (.inl (isQuote_iff.mpr hq)))).1] at ha
    have hm : ¬(c = '-' ∨ c.isDigit = true) := by
      rintro (rfl | hd)
      · exact absurd ha (by decide)
      · simp [isDigit_eq_false_of_isAlpha ha] at hd
    have hstart : isNameStart c = true := by simp [isNameStart, ha]
    rw [if_neg hq, if_neg hm, if_pos hstart]
    exact readName_eq_ok.mpr hn
  · have hq : ¬(c = '"' ∨ c = '\'') := by
      rintro (rfl | rfl)
      · exact absurd hm (by decide)
      · exact absurd hm (by decide)
    rw [if_neg hq, if_pos hm]
    refine readSigned_eq_ok.mpr (hn.imp_right ?_)
    rintro ⟨rfl, x, hx, rfl⟩
    exact ⟨rest, x, rfl, hx, rfl⟩
  · have hq' := isQuote_iff.mp hq
    rw [if_pos hq', (readString_eq_ok hq').mpr hs, ok_bind]

theorem readLevel_none_eq_ok {limit bound : Nat} {text next : List Char} {literal : Literal} :
    readLevel limit bound Option.none text = .ok (literal, next) ↔
      Scalar (skipBlank text) literal next := by
  cases hs : skipBlank text with
  | nil =>
    constructor
    · intro h
      simp [readLevel, hs] at h
    · intro h
      exact absurd rfl h.ne_nil
  | cons c rest =>
    refine ⟨fun h => ?_, readLevel_of_scalar limit bound Option.none hs⟩
    cases hb : isBracket c with
    | false => exact scalar_of_readLevel hs hb h
    | true =>
      have hb' : c = '[' ∨ c = '(' ∨ c = '{' := by
        simpa [isBracket, or_assoc] using hb
      simp [readLevel, hs, hb'] at h

end LiteralBridge.Literal
