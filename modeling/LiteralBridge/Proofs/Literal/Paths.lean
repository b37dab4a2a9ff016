import LiteralBridge.Proofs.Literal.Unique
import LiteralBridge.Proofs.Text.Trimming

/-! # Paths are no literals

A literal that begins like a name has no point in it. So the path of an attribute is never a literal,
whatever stands before the name of the attribute (`exists_parse_eq_error`). -/

namespace LiteralBridge.Literal

open Text Grammar

/-- The text goes on with `next` after a part that has no point in it. -/
def WithoutPoint (text next : List Char) : Prop :=
  ∃ token, text = token ++ next ∧ '.' ∉ token

theorem withoutPoint_append {token : List Char} (h : '.' ∉ token) (next : List Char) :
    WithoutPoint (token ++ next) next :=
  ⟨token, rfl, h⟩

theorem withoutPoint_cons {c : Char} (h : c ≠ '.') (next : List Char) :
    WithoutPoint (c :: next) next :=
  ⟨[c], rfl, by simpa using h.symm⟩

theorem WithoutPoint.trans {text middle next : List Char} (h : WithoutPoint text middle)
    (h' : WithoutPoint middle next) : WithoutPoint text next := by
  obtain ⟨token, rfl, ht⟩ := h
  obtain ⟨token', rfl, ht'⟩ := h'
  exact ⟨token ++ token', (List.append_assoc ..).symm, by simp [ht, ht']⟩

/-! ## Strings -/

theorem Grammar.Blanks.withoutPoint {text next : List Char} (h : Blanks text next) :
    WithoutPoint text next := by
  obtain ⟨blanks, hb, rfl⟩ := h
  refine withoutPoint_append (fun hm => ?_) next
  exact absurd (hb '.' hm) (by decide)

theorem not_mem_of_readDigits {value? : Char → Option Nat} {base n code : Nat} {digits : List Char}
    (hv : value? '.' = Option.none) (h : readDigits value? base n digits = some code) :
    '.' ∉ digits := by
  intro hm
  have hs := isSome_of_readDigits h '.' hm
  simp [hv] at hs

theorem Grammar.Escape.withoutPoint {text decoded next : List Char} (h : Escape text decoded next) :
    WithoutPoint text next := by
  cases h with
  | simple h =>
    have hne : ∀ e ∈ simpleEscapes, e.1 ≠ '.' := by decide
    exact withoutPoint_cons (hne _ h) next
  | continuedLine => exact withoutPoint_cons (by decide) next
  | octal pos le code longest => exact withoutPoint_append (not_mem_of_readDigits rfl code) next
  | hex h code =>
    have hne : ∀ e ∈ hexEscapes, e.1 ≠ '.' := by decide
    exact (withoutPoint_cons (hne _ h) _).trans
      (withoutPoint_append (not_mem_of_readDigits rfl code) next)

/-- A point in a string stands for itself. -/
theorem Grammar.Inside.withoutPoint {quote : Char} (hq : quote ≠ '.')
    {text content next : List Char} (h : Inside quote text content next) (hc : '.' ∉ content) :
    WithoutPoint text next := by
  induction h with
  | close => exact withoutPoint_cons hq _
  | plain _ _ _ _ ih =>
    rw [List.mem_cons, not_or] at hc
    exact (withoutPoint_cons (Ne.symm hc.1) _).trans (ih hc.2)
  | escape he _ ih =>
    rw [List.mem_append, not_or] at hc
    exact (withoutPoint_cons (by decide) _).trans (he.withoutPoint.trans (ih hc.2))

theorem Grammar.Quoted.withoutPoint {text next : List Char} {s : String} (h : Quoted text s next)
    (hs : '.' ∉ s.toList) : WithoutPoint text next := by
  obtain ⟨quote, inside, hq, rfl, hi⟩ := h
  have hne : quote ≠ '.' := by
    rcases hq with rfl | rfl <;> decide
  exact (withoutPoint_cons hne _).trans (hi.withoutPoint hne hs)

/-! ## Names and calls -/

theorem Grammar.SpecialFloat.not_mem {argument : List Char} {x : Binary64}
    (h : SpecialFloat argument x) : '.' ∉ argument := by
  intro hm
  have hm : '.' ∈ (trim argument).map lowerAscii :=
    List.mem_map.mpr ⟨'.', mem_trim hm (by decide), by decide⟩
  cases h with
  | infinity hw ha =>
    rcases ha with ha | ha <;> rcases hw with rfl | rfl <;> rw [ha] at hm <;> revert hm <;> decide
  | negativeInfinity hw ha =>
    rcases hw with rfl | rfl <;> rw [ha] at hm <;> revert hm <;> decide
  | nan hs ha =>
    rcases hs with rfl | rfl | rfl <;> rw [ha] at hm <;> revert hm <;> decide

theorem Grammar.Name.withoutPoint {text next : List Char} {literal : Literal}
    (h : Name text literal next) : WithoutPoint text next := by
  cases h with
  | constant h stop =>
    have hne : ∀ e ∈ constants, '.' ∉ e.1.toList := by decide
    exact withoutPoint_append (hne _ h) next
  | floatCall hb hq ha hx =>
    refine (withoutPoint_append (by decide) _).trans ((withoutPoint_cons (by decide) _).trans ?_)
    refine hb.withoutPoint.trans ((hq.withoutPoint hx.not_mem).trans ?_)
    exact ha.withoutPoint.trans (withoutPoint_cons (by decide) next)
  | setCall h =>
    refine (withoutPoint_append (by decide) _).trans ((withoutPoint_cons (by decide) _).trans ?_)
    exact h.withoutPoint.trans (withoutPoint_cons (by decide) next)

/-! ## Texts -/

/-- What begins like a name and has a point in it is no literal. -/
theorem exists_parse_eq_error (limit : Nat) {text : String}
    (hh : text.toList.head?.any isNameStart = true) (hp : '.' ∈ text.toList) :
    ∃ e, parse limit text = .error e := by
  cases hr : parse limit text with
  | error e => exact ⟨e, rfl⟩
  | ok literal =>
    obtain ⟨start, rest, ⟨blanks, hb, ht⟩, hd, ha⟩ := readText_eq_ok.mp (parse_eq_ok.mp hr)
    rw [ht] at hh hp
    cases blanks with
    | cons b more =>
      have hblank := isBlank_eq_false_of_beginsLiteral (c := b) (by simp_all [beginsLiteral])
      rw [hb b List.mem_cons_self] at hblank
      exact absurd hblank.symm Bool.false_ne_true
    | nil =>
      rw [List.nil_append] at hh hp
      cases start with
      | nil => simp at hp
      | cons c tail =>
        obtain ⟨token, he, hn⟩ := (hd.name (by simpa using hh)).withoutPoint.trans ha.withoutPoint
        rw [he, List.append_nil] at hp
        exact absurd hp hn

end LiteralBridge.Literal
