import LiteralBridge.Host.Serve
import LiteralBridge.Proofs.Text.Trimming

/-! # Cutting into lines

A text is cut after each line feed, so lines that have none in them come out as they were put
together (`terminatedLines_joinLines`, `lines_joinLines`). -/

namespace LiteralBridge

namespace Text

/-- A part in which nothing ends a piece, with what ends one, is a piece. -/
theorem pieces_append_cons {α : Type} {ends : α → Bool} {part : List α} {last : α}
    (hp : ∀ a ∈ part, ends a = false) (hl : ends last = true) (rest : List α) :
    pieces ends (part ++ last :: rest) = (part ++ [last]) :: pieces ends rest := by
  induction part with
  | nil => simp [pieces, hl]
  | cons a part ih =>
    obtain ⟨ha, hpart⟩ := List.forall_mem_cons.mp hp
    simp [pieces, ha, ih hpart]

theorem pieces_eq_singleton {α : Type} {ends : α → Bool} {part : List α}
    (hp : ∀ a ∈ part, ends a = false) (hne : part ≠ []) : pieces ends part = [part] := by
  induction part with
  | nil => exact absurd rfl hne
  | cons a part ih =>
    obtain ⟨ha, hpart⟩ := List.forall_mem_cons.mp hp
    cases part with
    | nil => simp [pieces, ha]
    | cons b part =>
      rw [pieces, ih hpart (List.cons_ne_nil b part)]
      simp [ha]

/-- The text is cut into its lines, each with the line feed that ends it. The last one may lack it, but
is not empty then. -/
inductive IsCut : (text : List Char) → (lines : List (List Char)) → Prop where
  | nil : IsCut [] []
  | unterminated {content : List Char} :
      content ≠ [] → '\n' ∉ content → IsCut content [content]
  | terminated {content rest : List Char} {lines : List (List Char)} :
      '\n' ∉ content → IsCut rest lines →
      IsCut (content ++ '\n' :: rest) ((content ++ ['\n']) :: lines)

theorem IsCut.terminatedLines_eq {text : List Char} {lines : List (List Char)}
    (h : IsCut text lines) : terminatedLines text = lines := by
  have ordinary {content : List Char} (hc : '\n' ∉ content) :
      ∀ c ∈ content, (c == '\n') = false := by
    intro c hm
    exact beq_eq_false_iff_ne.mpr (fun he => hc (he ▸ hm))
  induction h with
  | nil => rfl
  | unterminated hne hc => exact pieces_eq_singleton (ordinary hc) hne
  | terminated hc _ ih => exact (pieces_append_cons (ordinary hc) rfl _).trans (congrArg _ ih)

/-- Every text is cut into lines, by one character after the other. -/
theorem isCut_terminatedLines (text : List Char) : IsCut text (terminatedLines text) := by
  obtain ⟨lines, hlines⟩ : ∃ lines, IsCut text lines := by
    induction hn : text.length using Nat.strongRecOn generalizing text with
    | _ n ih =>
      by_cases hm : '\n' ∈ text
      · obtain ⟨content, rest, rfl, hc⟩ := List.eq_append_cons_of_mem hm
        have hlt : rest.length < n := by
          simp only [List.length_append, List.length_cons] at hn
          omega
        obtain ⟨lines, hlines⟩ := ih _ hlt rest rfl
        exact ⟨_, .terminated hc hlines⟩
      · cases text with
        | nil => exact ⟨[], .nil⟩
        | cons c rest => exact ⟨_, .unterminated (List.cons_ne_nil c rest) hm⟩
  rwa [hlines.terminatedLines_eq]

/-- A text without line breaks is the content of its line. -/
theorem lineContent_append {cs : List Char} (h : ∀ c ∈ cs, isLineBreak c = false) :
    lineContent (cs ++ ['\n']) = cs := by
  rw [lineContent, List.reverse_append, List.reverse_singleton, List.singleton_append]
  cases hr : cs.reverse with
  | nil => rw [List.reverse_eq_nil_iff.mp hr]; rfl
  | cons d more =>
    have hd : d ≠ '\r' := by
      rintro rfl
      have hm : '\r' ∈ cs := by
        rw [← List.mem_reverse, hr]
        exact List.mem_cons_self
      exact absurd (h _ hm) (by decide)
    have hc : cs = (d :: more).reverse := List.reverse_eq_iff.mp hr
    split
    · next he =>
      obtain ⟨rfl, -⟩ := List.cons.inj (List.cons.inj he).2
      exact absurd rfl hd
    · next he =>
      rw [← (List.cons.inj he).2, hc]
    · next hno => exact absurd rfl (hno (d :: more))

/-- The line feed at the end of a line is dropped, and no more. -/
theorem dropEndWhile_append_newline {cs : List Char} (h : ∀ c ∈ cs, isLineBreak c = false) :
    dropEndWhile isLineBreak (cs ++ ['\n']) = cs := by
  rw [dropEndWhile_eq_rdropWhile, List.rdropWhile_concat_pos _ _ _ (by decide),
    ← dropEndWhile_eq_rdropWhile]
  apply dropEndWhile_eq_self
  intro c hc
  exact h c (List.mem_of_getLast? hc)

end Text

open Text

theorem toList_joinLines (texts : List String) :
    (joinLines texts).toList = texts.flatMap fun text => text.toList ++ ['\n'] := by
  induction texts with
  | nil => rfl
  | cons text rest ih =>
    rw [joinLines, List.foldr_cons, ← joinLines]
    simp [ih]

theorem terminatedLines_joinLines {texts : List String}
    (h : ∀ text ∈ texts, ∀ c ∈ text.toList, isLineBreak c = false) :
    terminatedLines (joinLines texts).toList = texts.map fun text => text.toList ++ ['\n'] := by
  rw [toList_joinLines]
  induction texts with
  | nil => rfl
  | cons text rest ih =>
    obtain ⟨ht, hrest⟩ := List.forall_mem_cons.mp h
    have hn : ∀ c ∈ text.toList, (c == '\n') = false := by
      intro c hc
      exact (Bool.or_eq_false_iff.mp (ht c hc)).1
    rw [List.flatMap_cons, List.append_assoc, List.singleton_append, terminatedLines,
      pieces_append_cons hn (by decide), List.map_cons, ← ih hrest]
    rfl

theorem lines_joinLines {texts : List String}
    (h : ∀ text ∈ texts, ∀ c ∈ text.toList, isLineBreak c = false) :
    lines (joinLines texts).toList = texts.map String.toList := by
  rw [lines, terminatedLines_joinLines h, List.map_map]
  apply List.map_congr_left
  intro text ht
  exact lineContent_append (h text ht)

end LiteralBridge
