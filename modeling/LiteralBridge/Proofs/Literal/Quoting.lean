import LiteralBridge.Literal.Render
import LiteralBridge.Proofs.Literal.Readers

/-! # Strings in the text of literals

A written string reads back whatever follows it (`quoted_renderString`). -/

namespace LiteralBridge.Literal

open Text Grammar

/-! ## One character -/

theorem readHex_hexDigits_of_lt {width n : Nat} (h : n < Nat.pow 16 width) :
    readHex (hexDigits width n) = some n := by
  rw [readHex_hexDigits, Nat.mod_eq_of_lt h]

/-- A character is written as an escape, or as itself if a string may hold it as it is. -/
theorem escapeChar_cases (c : Char) :
    (∃ escape, escapeChar c = '\\' :: escape ∧ ∀ next, Escape (escape ++ next) [c] next) ∨
      escapeChar c = [c] ∧ c ≠ '"' ∧ c ≠ '\\' ∧ isLineBreak c = false := by
  have simple {escaped decoded : Char} (h : (escaped, decoded) ∈ simpleEscapes) :
      ∃ escape, ['\\', escaped] = '\\' :: escape ∧
        ∀ next, Escape (escape ++ next) [decoded] next :=
    ⟨[escaped], rfl, fun _ => .simple h⟩
  have hex {letter c : Char} {width : Nat} (h : (letter, width) ∈ hexEscapes)
      (hlt : c.toNat < Nat.pow 16 width) :
      ∃ escape, '\\' :: letter :: hexDigits width c.toNat = '\\' :: escape ∧
        ∀ next, Escape (escape ++ next) [c] next := by
    refine ⟨letter :: hexDigits width c.toNat, rfl, fun next => .hex ?_ ?_⟩
    · rwa [length_hexDigits]
    · exact readHex_hexDigits_of_lt hlt
  by_cases hbackslash : c = '\\'
  · subst hbackslash
    exact .inl (simple (by decide))
  by_cases hdouble : c = '"'
  · subst hdouble
    exact .inl (simple (by decide))
  by_cases hsingle : c = '\''
  · subst hsingle
    exact .inl (simple (by decide))
  by_cases hfeed : c = '\n'
  · subst hfeed
    exact .inl (simple (by decide))
  by_cases hreturn : c = '\r'
  · subst hreturn
    exact .inl (simple (by decide))
  by_cases htab : c = '\t'
  · subst htab
    exact .inl (simple (by decide))
  simp only [escapeChar, if_neg hbackslash, if_neg hdouble, if_neg hsingle, if_neg hfeed,
    if_neg hreturn, if_neg htab]
  by_cases hcontrol : isControl c = true
  · simp only [if_pos hcontrol]
    refine .inl (hex (by decide) ?_)
    simp only [isControl, Bool.or_eq_true, Bool.and_eq_true, decide_eq_true_eq] at hcontrol
    change c.toNat < 256
    omega
  simp only [if_neg hcontrol]
  by_cases hseparator : c = '\u2028' ∨ c = '\u2029'
  · simp only [if_pos hseparator]
    refine .inl (hex (by decide) ?_)
    rcases hseparator with rfl | rfl <;> decide
  · simp only [if_neg hseparator]
    exact .inr ⟨trivial, hdouble, hbackslash, by simp [isLineBreak, hfeed, hreturn]⟩

/-! ## Strings -/

theorem inside_flatMap_escapeChar (cs next : List Char) :
    Inside '"' (cs.flatMap escapeChar ++ '"' :: next) cs next := by
  induction cs with
  | nil => exact .close
  | cons c cs ih =>
    rw [List.flatMap_cons, List.append_assoc]
    rcases escapeChar_cases c with ⟨escape, he, hescape⟩ | ⟨he, hquote, hbackslash, hline⟩
    · rw [he]
      exact .escape (hescape _) ih
    · rw [he]
      exact .plain hquote hbackslash hline ih

/-- A written string is read back, and its reading ends where the string does. -/
theorem quoted_renderString (s : String) (next : List Char) :
    Quoted (renderString s ++ next) s next := by
  refine ⟨'"', s.toList.flatMap escapeChar ++ '"' :: next, .inl rfl, ?_, ?_⟩
  · simp [renderString]
  · exact inside_flatMap_escapeChar s.toList next

end LiteralBridge.Literal
