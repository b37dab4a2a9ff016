import LiteralBridge.Proofs.Literal.Brackets

/-! # What the parser accepts

`parse` accepts exactly the texts that are a literal of the grammar with white space around it, and
gives the literal that the grammar says (`parse_eq_ok_iff`). -/

namespace LiteralBridge.Literal

open Text Grammar

/-! ## One level -/

theorem ofParentheses_eq_tuple {items : List Literal} {comma : Bool}
    (h : items.length = 1 → comma = true) : ofParentheses (items, comma) = .tuple items := by
  unfold ofParentheses
  split
  · next literal he =>
    obtain ⟨rfl, rfl⟩ := Prod.mk.inj he
    simp at h
  · next he =>
    obtain ⟨rfl, rfl⟩ := Prod.mk.inj he
    rfl

theorem bracketed_parentheses {Item : List Char → Literal → List Char → Prop}
    {text next : List Char} {items : List Literal} {comma : Bool}
    (h : Separated Item text items comma (')' :: next)) :
    Bracketed Item ('(' :: text) (ofParentheses (items, comma)) next := by
  by_cases hc : items.length = 1 → comma = true
  · exact ofParentheses_eq_tuple hc ▸ .tuple h hc
  · rw [Classical.not_imp, Bool.not_eq_true] at hc
    obtain ⟨hlen, rfl⟩ := hc
    obtain ⟨literal, rfl⟩ := List.length_eq_one_iff.mp hlen
    exact .group h

section Level

variable {limit bound : Nat} {item : Reader Literal} {Item : List Char → Literal → List Char → Prop}

theorem bracketed_of_readLevel (hr : Recognizes bound item Item) {text rest next : List Char}
    {c : Char} {literal : Literal} (hs : skipBlank text = c :: rest) (hb : isBracket c = true)
    (hlt : rest.length < bound)
    (h : readLevel limit bound (some item) text = .ok (literal, next)) :
    Bracketed Item (c :: rest) literal next := by
  simp only [isBracket, Bool.or_eq_true, beq_iff_eq] at hb
  rcases hb with (rfl | rfl) | rfl
  · simp only [readLevel, hs, true_or, if_true] at h
    obtain ⟨⟨⟨items, comma⟩, after⟩, hi, h⟩ := bind_eq_ok.mp h
    obtain ⟨rfl, rfl⟩ := Prod.mk.inj (Except.ok.inj h)
    exact .list (separated_of_readItems hr hlt hi)
  · simp only [readLevel, hs, true_or, or_true, if_true, Char.reduceEq, if_false] at h
    obtain ⟨⟨⟨items, comma⟩, after⟩, hi, h⟩ := bind_eq_ok.mp h
    obtain ⟨rfl, rfl⟩ := Prod.mk.inj (Except.ok.inj h)
    exact bracketed_parentheses (separated_of_readItems hr hlt hi)
  · simp only [readLevel, hs, or_true, if_true, Char.reduceEq, if_false] at h
    exact bracketed_of_readBraces hr hlt h

theorem readLevel_of_bracketed (hr : Recognizes bound item Item) {text start next : List Char}
    {literal : Literal} (hs : skipBlank text = start) (hlt : start.length ≤ bound)
    (h : Bracketed Item start literal next) :
    readLevel limit bound (some item) text = .ok (literal, next) := by
  cases h with
  | list h =>
    have hi := readItems_of_separated hr '[' (.inl rfl) hlt hlt h
    simp only [readLevel, hs, true_or, if_true, hi, ok_bind]
  | group h =>
    have hi := readItems_of_separated hr '(' (.inr rfl) hlt hlt h
    simp only [readLevel, hs, true_or, or_true, if_true, Char.reduceEq, if_false, hi, ok_bind,
      ofParentheses]
  | tuple h hc =>
    have hi := readItems_of_separated hr '(' (.inr rfl) hlt hlt h
    simp only [readLevel, hs, true_or, or_true, if_true, Char.reduceEq, if_false, hi, ok_bind,
      ofParentheses_eq_tuple hc]
  | set h hne =>
    have hi := readBraces_of_set hr hlt hlt h hne
    simp only [readLevel, hs, or_true, if_true, Char.reduceEq, if_false, hi]
  | dict h =>
    have hi := readBraces_of_dict hr hlt hlt h
    simp only [readLevel, hs, or_true, if_true, Char.reduceEq, if_false, hi]

theorem Grammar.Bracketed.head {text next : List Char} {literal : Literal}
    (h : Bracketed Item text literal next) : ∃ c rest, text = c :: rest ∧ isBracket c = true := by
  cases h <;> exact ⟨_, _, rfl, rfl⟩

theorem readLevel_some_eq_ok (hr : Recognizes bound item Item) {text next : List Char}
    {literal : Literal} (hlt : text.length < bound) :
    readLevel limit bound (some item) text = .ok (literal, next) ↔
      Scalar (skipBlank text) literal next ∨ Bracketed Item (skipBlank text) literal next := by
  have hl := (blanks_skipBlank text).length_le
  constructor
  · intro h
    cases hs : skipBlank text with
    | nil => simp [readLevel, hs] at h
    | cons c rest =>
      rw [hs, List.length_cons] at hl
      cases hb : isBracket c with
      | false => exact .inl (scalar_of_readLevel hs hb h)
      | true => exact .inr (bracketed_of_readLevel hr hs hb (by omega) h)
  · rintro (h | h)
    · obtain ⟨c, rest, hs, -, -⟩ := h.head
      exact readLevel_of_scalar limit bound (some item) hs (hs ▸ h)
    · exact readLevel_of_bracketed hr rfl (by omega) h

end Level

/-! ## All levels -/

theorem Grammar.Separated.length_le {α : Type} {Item : List Char → α → List Char → Prop}
    (hi : ∀ {text x next}, Item text x next → next.length < text.length) {text next : List Char}
    {xs : List α} {comma : Bool} (h : Separated Item text xs comma next) :
    next.length ≤ text.length := by
  induction h with
  | nil hb => exact hb.length_le
  | last hb hx ha =>
    have hl := hi hx
    have := hb.length_le
    have := ha.length_le
    omega
  | more hb hx ha _ ih =>
    have hl := hi hx
    have := hb.length_le
    have := ha.length_le
    simp only [List.length_cons] at this
    omega

theorem Grammar.Bracketed.length_lt {Item : List Char → Literal → List Char → Prop}
    (hi : ∀ {text literal next}, Item text literal next → next.length < text.length)
    {text next : List Char} {literal : Literal} (h : Bracketed Item text literal next) :
    next.length < text.length := by
  -- The closing bracket is not among what follows, so the count is strict even without items.
  have close {α : Type} {I : List Char → α → List Char → Prop} {text next : List Char} {xs : List α}
      {opening closing : Char} {comma : Bool}
      (hI : ∀ {text x next}, I text x next → next.length < text.length)
      (h : Separated I text xs comma (closing :: next)) : next.length < (opening :: text).length := by
    have hl := h.length_le hI
    simp only [List.length_cons] at hl ⊢
    omega
  cases h with
  | list h => exact close hi h
  | group h => exact close hi h
  | tuple h => exact close hi h
  | set h => exact close hi h
  | dict h => exact close (Entry.length_lt hi) h

/-- Brackets begin a literal too. -/
theorem beginsLiteral_of_isBracket {c : Char} (h : isBracket c = true) : beginsLiteral c = true := by
  simp [beginsLiteral, h]

theorem recognizes_readValue (limit bound room : Nat) :
    Recognizes bound (readValue limit bound room) (Denotes room) := by
  have scalar_head {text next : List Char} {literal : Literal} (h : Scalar text literal next) :
      ∃ c rest, text = c :: rest ∧ beginsLiteral c = true := by
    obtain ⟨c, rest, rfl, hc, -⟩ := h.head
    exact ⟨c, rest, rfl, hc⟩
  induction room with
  | zero =>
    exact {
      iff := fun _ => readLevel_none_eq_ok
      head := fun h => scalar_head h
      shrinks := fun h => Scalar.length_lt h }
  | succ room ih =>
    exact {
      iff := fun hlt => readLevel_some_eq_ok ih hlt
      head := by
        rintro text next literal (h | h)
        · exact scalar_head h
        · obtain ⟨c, rest, rfl, hc⟩ := h.head
          exact ⟨c, rest, rfl, beginsLiteral_of_isBracket hc⟩
      shrinks := by
        rintro text next literal (h | h)
        · exact h.length_lt
        · exact h.length_lt ih.shrinks }

/-! ## Whole texts -/

/-- White space does not come into the text of a literal, so the reader starts where the literal
does. -/
theorem readText_eq_ok {limit : Nat} {text : List Char} {literal : Literal} :
    readText limit text = .ok literal ↔
      ∃ start rest, Blanks text start ∧ Denotes limit start literal rest ∧ Blanks rest [] := by
  have hr := recognizes_readValue limit (text.length + 1) limit
  have skipped {rest : List Char} : skipBlank rest = [] ↔ Blanks rest [] :=
    ⟨fun h => h ▸ blanks_skipBlank rest, fun h => h.skipBlank_eq (stops_nil isBlank)⟩
  constructor
  · intro h
    obtain ⟨⟨found, after⟩, hv, h⟩ := bind_eq_ok.mp h
    cases hs : skipBlank after with
    | nil =>
      simp only [hs, Except.ok.injEq] at h
      subst h
      exact ⟨skipBlank text, after, blanks_skipBlank text, (hr.iff (Nat.lt_succ_self _)).mp hv,
        skipped.mp hs⟩
    | cons c rest => simp [hs] at h
  · rintro ⟨start, rest, hb, hd, ha⟩
    have hs := hb.skipBlank_eq (hr.stops hd)
    have hv := (hr.iff (Nat.lt_succ_self text.length)).mpr (hs ▸ hd)
    simp only [readText, hv, ok_bind, skipped.mpr ha]

theorem parse_eq_ok {limit : Nat} {text : String} {literal : Literal} :
    parse limit text = .ok literal ↔ readText limit text.toList = .ok literal := by
  unfold parse
  split
  · next h => simp [h]
  · next h => simp [h]

/-- A text is read as a literal exactly if the grammar says that, apart from white space around it,
it denotes this literal with brackets nested within the limit. -/
theorem parse_eq_ok_iff (limit : Nat) (text : String) (literal : Literal) :
    parse limit text = .ok literal ↔
      ∃ start rest, Blanks text.toList start ∧ Denotes limit start literal rest ∧
        Blanks rest [] := by
  rw [parse_eq_ok, readText_eq_ok]

end LiteralBridge.Literal
