import LiteralBridge.Proofs.Literal.Acceptance
import LiteralBridge.Proofs.Literal.Lines
import LiteralBridge.Proofs.Literal.Quoting

/-! # Written strings end where they should

Whatever a string holds and whatever stands behind it, its text is read back as that string, and the
reading ends with the text (`readString_renderString`). So a string can be told from any text that
begins with it (`renderString_append_inj`), and nothing in a string is taken for what is around it
(`renderString_delimited`). -/

namespace LiteralBridge.Literal

open Text Grammar

/-- The reader of strings takes a written string off a text, all of it and nothing else. -/
theorem readString_renderString (s : String) (next : List Char) :
    readString (renderString s ++ next) = .ok (s, next) := by
  have hq := quoted_renderString s next
  rw [renderString, List.cons_append] at hq ⊢
  exact (readString_eq_ok (.inl rfl)).mpr hq

/-- At every depth, even without a level left, a written string is read as a literal of its own. -/
theorem readValue_renderString (limit bound room : Nat) (s : String) (next : List Char) :
    readValue limit bound room (renderString s ++ next) = .ok (.str s, next) := by
  have hscalar : Scalar (renderString s ++ next) (.str s) next := .string (quoted_renderString s next)
  rw [renderString, List.cons_append] at hscalar ⊢
  have hskip : skipBlank ('"' :: (s.toList.flatMap escapeChar ++ ['"'] ++ next)) = _ :=
    skipBlank_eq_self (stops_cons.mpr (by decide))
  cases room with
  | zero => exact readLevel_of_scalar limit bound _ hskip hscalar
  | succ room => exact readLevel_of_scalar limit bound _ hskip hscalar

theorem parse_renderString (limit : Nat) (s : String) :
    parse limit (String.ofList (renderString s)) = .ok (.str s) := by
  have hread := readValue_renderString limit ((renderString s).length + 1) limit s []
  rw [List.append_nil] at hread
  rw [parse_eq_ok, String.toList_ofList, readText, hread]
  rfl

/-- A written string, and the place where it ends, can be told from the text. -/
theorem renderString_append_inj {s t : String} {next next' : List Char}
    (h : renderString s ++ next = renderString t ++ next') : s = t ∧ next = next' := by
  have hread := readString_renderString s next
  rw [h, readString_renderString] at hread
  obtain ⟨rfl, rfl⟩ := Prod.mk.inj (Except.ok.inj hread)
  exact ⟨rfl, rfl⟩

theorem eq_of_prefix_renderString {s t : String} (h : renderString s <+: renderString t) : s = t := by
  obtain ⟨next, hn⟩ := h
  rw [← List.append_nil (renderString t)] at hn
  exact (renderString_append_inj hn).1

theorem toNat_of_isLineSafe {c : Char} (h : isLineSafe c = true) :
    0x20 ≤ c.toNat ∧ (c.toNat < 0x7f ∨ 0x9f < c.toNat) ∧ c ≠ '\u2028' ∧ c ≠ '\u2029' := by
  simp only [isLineSafe, isControl, Bool.and_eq_true, Bool.not_eq_true', Bool.or_eq_false_iff,
    Bool.and_eq_false_iff, decide_eq_false_iff_not, bne_iff_ne] at h
  obtain ⟨⟨⟨hlow, hhigh⟩, hline⟩, hparagraph⟩ := h
  exact ⟨by omega, by omega, hline, hparagraph⟩

/-- A string is written so that it cannot close early. Its text is read back as the string, by the reader
of strings and wherever a literal is read, and what follows is left as it is. No other string has this
text or one that begins with it. The text is one line without control characters, and it is a whole
literal under every limit. -/
theorem renderString_delimited (s : String) :
    (∀ next, readString (renderString s ++ next) = .ok (s, next) ∧
      ∀ limit bound room, readValue limit bound room (renderString s ++ next) = .ok (.str s, next)) ∧
    (∀ t, renderString s = renderString t → s = t) ∧
    (∀ t, renderString s <+: renderString t → renderString s = renderString t) ∧
    (∀ c ∈ renderString s,
      0x20 ≤ c.toNat ∧ (c.toNat < 0x7f ∨ 0x9f < c.toNat) ∧ c ≠ '\u2028' ∧ c ≠ '\u2029') ∧
    ∀ limit, parse limit (String.ofList (renderString s)) = .ok (.str s) := by
  refine ⟨fun next => ⟨readString_renderString s next, fun limit bound room => ?_⟩,
    fun t h => ?_, fun t h => ?_, fun c hc => ?_, fun limit => parse_renderString limit s⟩
  · exact readValue_renderString limit bound room s next
  · exact eq_of_prefix_renderString (h ▸ List.prefix_refl _)
  · rw [eq_of_prefix_renderString h]
  · exact toNat_of_isLineSafe (lineSafe_renderString s c hc)

end LiteralBridge.Literal
