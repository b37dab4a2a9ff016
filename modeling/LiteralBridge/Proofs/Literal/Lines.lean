import LiteralBridge.Proofs.Literal.Floats
import LiteralBridge.Proofs.Literal.Scalars

/-! # Lines of literals

The canonical text of a literal is a single line, to whatever reader: it has no control character
and none of the line separators of Unicode (`lineSafe_render`). It does not end with white space
either (`getLast?_render`). -/

namespace LiteralBridge.Literal

open Text Grammar

/-- Neither a control character nor one of the line separators of Unicode. -/
def isLineSafe (c : Char) : Bool :=
  !isControl c && c != '\u2028' && c != '\u2029'

def LineSafe (text : List Char) : Prop :=
  ∀ c ∈ text, isLineSafe c = true

instance (text : List Char) : Decidable (LineSafe text) :=
  decidable_of_iff (text.all isLineSafe = true) List.all_eq_true

theorem lineSafe_nil : LineSafe [] := by
  simp [LineSafe]

theorem lineSafe_cons {c : Char} {text : List Char} :
    LineSafe (c :: text) ↔ isLineSafe c = true ∧ LineSafe text := by
  simp [LineSafe]

theorem lineSafe_append {text more : List Char} :
    LineSafe (text ++ more) ↔ LineSafe text ∧ LineSafe more := by
  simp only [LineSafe, List.forall_mem_append]

/-! ## Strings -/

theorem isLineSafe_digitChar {d : Nat} (h : d < 16) : isLineSafe (Nat.digitChar d) = true := by
  have : ∀ d < 16, isLineSafe (Nat.digitChar d) = true := by decide
  exact this d h

theorem lineSafe_hexDigits (width n : Nat) : LineSafe (hexDigits width n) := by
  induction width generalizing n with
  | zero => exact lineSafe_nil
  | succ width ih =>
    rw [hexDigits, lineSafe_append, lineSafe_cons]
    exact ⟨ih _, isLineSafe_digitChar (Nat.mod_lt n (by decide)), lineSafe_nil⟩

theorem lineSafe_escapeChar (c : Char) : LineSafe (escapeChar c) := by
  have hex {letter : Char} (hl : isLineSafe letter = true) (width n : Nat) :
      LineSafe ('\\' :: letter :: hexDigits width n) := by
    rw [lineSafe_cons, lineSafe_cons]
    exact ⟨by decide, hl, lineSafe_hexDigits width n⟩
  unfold escapeChar
  split
  · decide
  split
  · decide
  split
  · decide
  split
  · decide
  split
  · decide
  split
  · decide
  split
  · exact hex (by decide) 2 c.toNat
  split
  · exact hex (by decide) 4 c.toNat
  · next hcontrol hseparator =>
    rw [lineSafe_cons]
    exact ⟨by simp_all [isLineSafe], lineSafe_nil⟩

theorem lineSafe_renderString (s : String) : LineSafe (renderString s) := by
  rw [renderString, lineSafe_cons, lineSafe_append, lineSafe_cons]
  refine ⟨by decide, fun c hc => ?_, by decide, lineSafe_nil⟩
  obtain ⟨d, -, hc⟩ := List.mem_flatMap.mp hc
  exact lineSafe_escapeChar d c hc

/-! ## Numbers -/

/-- The characters that a number is written with. -/
def isNumeral (c : Char) : Bool :=
  c.isDigit || c == '.' || c == '-' || c == '+' || c == 'e' || c == 'E'

theorem isNumeral_of_isDigit {c : Char} (h : c.isDigit = true) : isNumeral c = true := by
  simp [isNumeral, h]

theorem toNat_of_isNumeral {c : Char} (h : isNumeral c = true) : 43 ≤ c.toNat ∧ c.toNat ≤ 101 := by
  simp only [isNumeral, Bool.or_eq_true, beq_iff_eq] at h
  rcases h with ((((h | rfl) | rfl) | rfl) | rfl) | rfl
  · have hd := toNat_of_isDigit h
    omega
  all_goals decide

theorem isLineSafe_of_isNumeral {c : Char} (h : isNumeral c = true) : isLineSafe c = true := by
  have hc := toNat_of_isNumeral h
  have hcontrol : isControl c = false := by
    simp only [isControl, Bool.or_eq_false_iff, Bool.and_eq_false_iff, decide_eq_false_iff_not]
    omega
  have hseparator {d : Char} (hd : 101 < d.toNat) : (c != d) = true := by
    rw [bne_iff_ne]
    rintro rfl
    omega
  simp only [isLineSafe, hcontrol, Bool.not_false, Bool.true_and, Bool.and_eq_true]
  exact ⟨hseparator (by decide), hseparator (by decide)⟩

theorem isBlank_eq_false_of_isNumeral {c : Char} (h : isNumeral c = true) : isBlank c = false := by
  have hc := toNat_of_isNumeral h
  simp only [isBlank, Bool.or_eq_false_iff, Bool.and_eq_false_iff, decide_eq_false_iff_not,
    beq_eq_false_iff_ne]
  omega

theorem Grammar.Writes.isNumeral {text : List Char} {n : Numeral} (h : Writes text n) :
    ∀ c ∈ text, isNumeral c = true := by
  obtain ⟨whole, _, _⟩ := n
  obtain ⟨hw, fraction, exponent, hf, he, rfl⟩ := h
  have digits {digits : List Char} (h : ∀ c ∈ digits, c.isDigit = true) :
      ∀ c ∈ digits, Literal.isNumeral c = true := fun c hc => isNumeral_of_isDigit (h c hc)
  have mark {c : Char} (hm : c = 'e' ∨ c = 'E') : Literal.isNumeral c = true := by
    rcases hm with rfl | rfl <;> decide
  rw [List.forall_mem_append, List.forall_mem_append]
  refine ⟨digits hw.2, ?_, ?_⟩
  · cases hf with
    | absent => simp
    | digits h => exact List.forall_mem_cons.mpr ⟨by decide, digits h⟩
  · cases he with
    | absent => simp
    | unsigned hm hd => exact List.forall_mem_cons.mpr ⟨mark hm, digits hd.2⟩
    | @signed c negative digits' hm hd =>
      have hsign : Literal.isNumeral (if negative then '-' else '+') = true := by
        cases negative <;> decide
      exact List.forall_mem_cons.mpr ⟨mark hm, List.forall_mem_cons.mpr ⟨hsign, digits hd.2⟩⟩

theorem isNumeral_of_mem_minus (negative : Bool) : ∀ c ∈ minus negative, isNumeral c = true := by
  cases negative with
  | false => simp [minus]
  | true => simp [minus, isNumeral]

/-- A number that nothing follows. -/
theorem Grammar.Number.isNumeral {text : List Char} {literal : Literal}
    (h : Number text literal []) : ∀ c ∈ text, isNumeral c = true := by
  cases h with
  | integer hd =>
    rw [List.append_nil, List.forall_mem_append]
    exact ⟨isNumeral_of_mem_minus _, fun c hc => isNumeral_of_isDigit (hd.2 c hc)⟩
  | float hw =>
    rw [List.append_nil, List.forall_mem_append]
    exact ⟨isNumeral_of_mem_minus _, hw.isNumeral⟩

theorem isNumeral_of_mem_decimalInt (i : Int) : ∀ c ∈ decimalInt i, isNumeral c = true := by
  have hd (n : Nat) : ∀ c ∈ decimal n, isNumeral c = true :=
    fun c hc => isNumeral_of_isDigit (isDigit_of_mem_decimal hc)
  cases i with
  | ofNat n => exact hd n
  | negSucc n => exact List.forall_mem_cons.mpr ⟨by decide, hd (n + 1)⟩

theorem isNumeral_of_mem_renderFinite {x : Binary64} (hx : x.isFinite = true) :
    ∀ c ∈ x.renderFinite Binary64.hostFormat, isNumeral c = true := by
  have h := number_renderFinite Binary64.hostFormat hx (stops_nil continuesNumber)
  rw [List.append_nil] at h
  exact h.isNumeral

theorem lineSafe_decimalInt (i : Int) : LineSafe (decimalInt i) :=
  fun c hc => isLineSafe_of_isNumeral (isNumeral_of_mem_decimalInt i c hc)

theorem lineSafe_renderFloat (x : Binary64) : LineSafe (renderFloat x) := by
  unfold renderFloat
  split
  · decide
  split
  · next hfinite =>
    exact fun c hc => isLineSafe_of_isNumeral (isNumeral_of_mem_renderFinite hfinite c hc)
  split
  · decide
  · decide

/-! ## Whole literals -/

theorem lineSafe_bracketed {opening closing : Char} {parts : List (List Char)}
    (ho : isLineSafe opening = true) (hc : isLineSafe closing = true)
    (h : ∀ part ∈ parts, LineSafe part) : LineSafe (bracketed opening closing parts) := by
  have separated : LineSafe (commaSeparated parts) := by
    induction parts with
    | nil => exact lineSafe_nil
    | cons part rest ih =>
      obtain ⟨hpart, hrest⟩ := List.forall_mem_cons.mp h
      cases rest with
      | nil => exact hpart
      | cons next more =>
        rw [commaSeparated, lineSafe_append, lineSafe_cons, lineSafe_cons]
        exact ⟨hpart, by decide, by decide, ih hrest⟩
  rw [bracketed, lineSafe_cons, lineSafe_append, lineSafe_cons]
  exact ⟨ho, separated, hc, lineSafe_nil⟩

theorem lineSafe_parenthesized {parts : List (List Char)} (h : ∀ part ∈ parts, LineSafe part) :
    LineSafe (parenthesized parts) := by
  unfold parenthesized
  split
  · next part =>
    rw [lineSafe_cons, lineSafe_append]
    exact ⟨by decide, h part List.mem_cons_self, by decide⟩
  · exact lineSafe_bracketed (by decide) (by decide) h

theorem lineSafe_renderSet {parts : List (List Char)} (h : ∀ part ∈ parts, LineSafe part) :
    LineSafe (renderSet parts) := by
  unfold renderSet
  split
  · decide
  · exact lineSafe_bracketed (by decide) (by decide) h

theorem lineSafe_render (literal : Literal) : LineSafe literal.render := by
  induction literal with
  | none => decide
  | bool b => cases b <;> decide
  | int i => exact lineSafe_decimalInt i
  | float x => exact lineSafe_renderFloat x
  | str s => exact lineSafe_renderString s
  | list items ih =>
    rw [render, renderAll_eq_map]
    exact lineSafe_bracketed (by decide) (by decide) (List.forall_mem_map.mpr ih)
  | tuple items ih =>
    rw [render, renderAll_eq_map]
    exact lineSafe_parenthesized (List.forall_mem_map.mpr ih)
  | set items ih =>
    rw [render, renderAll_eq_map]
    exact lineSafe_renderSet (List.forall_mem_map.mpr ih)
  | dict entries ih =>
    rw [render, renderEntries_eq_map]
    refine lineSafe_bracketed (by decide) (by decide) (List.forall_mem_map.mpr fun entry he => ?_)
    rw [renderEntry, lineSafe_append, lineSafe_cons, lineSafe_cons]
    exact ⟨(ih entry he).1, by decide, by decide, (ih entry he).2⟩

/-! ## The last character -/

theorem not_blank_of_getLast? {text : List Char} {last : Char} (hl : text.getLast? = some last)
    (hb : isBlank last = false) : ∀ c ∈ text.getLast?, isBlank c = false := by
  intro c hc
  rw [hl] at hc
  rwa [← Option.some.inj hc]

theorem getLast?_bracketed {closing : Char} (hc : isBlank closing = false) (opening : Char)
    (parts : List (List Char)) :
    ∀ c ∈ (bracketed opening closing parts).getLast?, isBlank c = false := by
  apply not_blank_of_getLast? _ hc
  rw [bracketed, ← List.cons_append, List.getLast?_concat]

theorem getLast?_parenthesized (parts : List (List Char)) :
    ∀ c ∈ (parenthesized parts).getLast?, isBlank c = false := by
  have closing : isBlank ')' = false := by decide
  unfold parenthesized
  split
  · next part =>
    apply not_blank_of_getLast? _ closing
    rw [← List.cons_append, List.getLast?_append]
    rfl
  · exact getLast?_bracketed closing _ _

theorem getLast?_renderSet (parts : List (List Char)) :
    ∀ c ∈ (renderSet parts).getLast?, isBlank c = false := by
  unfold renderSet
  split
  · exact not_blank_of_getLast? rfl (by decide)
  · exact getLast?_bracketed (by decide) _ _

theorem not_blank_of_isNumeral {text : List Char} (h : ∀ c ∈ text, isNumeral c = true) :
    ∀ c ∈ text.getLast?, isBlank c = false := by
  intro c hc
  exact isBlank_eq_false_of_isNumeral (h c (List.mem_of_getLast? hc))

theorem getLast?_renderFloat (x : Binary64) :
    ∀ c ∈ (renderFloat x).getLast?, isBlank c = false := by
  unfold renderFloat
  split
  · exact not_blank_of_getLast? rfl (by decide)
  split
  · next hfinite => exact not_blank_of_isNumeral (isNumeral_of_mem_renderFinite hfinite)
  split
  · exact not_blank_of_getLast? rfl (by decide)
  · exact not_blank_of_getLast? rfl (by decide)

theorem getLast?_render (literal : Literal) : ∀ c ∈ literal.render.getLast?, isBlank c = false := by
  cases literal with
  | none => exact not_blank_of_getLast? rfl (by decide)
  | bool b =>
    cases b with
    | false => exact not_blank_of_getLast? rfl (by decide)
    | true => exact not_blank_of_getLast? rfl (by decide)
  | int i => exact not_blank_of_isNumeral (isNumeral_of_mem_decimalInt i)
  | float x => exact getLast?_renderFloat x
  | str s =>
    apply not_blank_of_getLast? _ (by decide : isBlank '"' = false)
    rw [render, renderString, ← List.cons_append, List.getLast?_concat]
  | list items => exact getLast?_bracketed (by decide) _ _
  | tuple items => exact getLast?_parenthesized _
  | set items => exact getLast?_renderSet _
  | dict entries => exact getLast?_bracketed (by decide) _ _

end LiteralBridge.Literal
