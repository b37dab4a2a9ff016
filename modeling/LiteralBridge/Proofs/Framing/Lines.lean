import LiteralBridge.Framing.Line

/-! # Texts and their lines

A line spells a text in single characters and in escapes, and it is read as far as it spells one. Of
the lines without a line break, each that can be read is the frame of what it is read as
(`frame_eq_iff`). A line that cannot be read has a broken escape behind the part that can
(`unframe_eq_error_iff`). -/

namespace LiteralBridge.Framing

open Text

/-! ## What a line spells -/

/-- The line spells the text: a backslash counts together with the character after it, every other
character stands for itself. -/
inductive Spells : (line text : List Char) → Prop where
  | nil : Spells [] []
  | plain {c : Char} {line text : List Char} :
      c ≠ '\\' → Spells line text → Spells (c :: line) (c :: text)
  | backslash {line text : List Char} :
      Spells line text → Spells ('\\' :: '\\' :: line) ('\\' :: text)
  | lineFeed {line text : List Char} :
      Spells line text → Spells ('\\' :: 'n' :: line) ('\n' :: text)
  | carriageReturn {line text : List Char} :
      Spells line text → Spells ('\\' :: 'r' :: line) ('\r' :: text)

/-- A line that begins with a backslash that escapes nothing, since no character or a wrong one comes
after it. -/
inductive Broken : (line : List Char) → FrameFault → Prop where
  | dangling : Broken ['\\'] .danglingBackslash
  | unknown {c : Char} {line : List Char} :
      c ≠ '\\' → c ≠ 'n' → c ≠ 'r' → Broken ('\\' :: c :: line) (.unknownEscape c)

theorem escaped?_eq_none {d : Char} :
    escaped? d = none ↔ d ≠ '\\' ∧ d ≠ 'n' ∧ d ≠ 'r' := by
  unfold escaped?
  split <;> simp_all

/-- An escape spells one character. -/
theorem Spells.escape {d decoded : Char} {line text : List Char} (h : escaped? d = some decoded)
    (hs : Spells line text) : Spells ('\\' :: d :: line) (decoded :: text) := by
  unfold escaped? at h
  split at h
  · rw [← Option.some.inj h]
    exact .backslash hs
  · rw [← Option.some.inj h]
    exact .lineFeed hs
  · rw [← Option.some.inj h]
    exact .carriageReturn hs
  · cases h

/-- What a line spells is read, whatever comes after it. -/
theorem Spells.unframeChars_append {front text : List Char} (h : Spells front text)
    (rest : List Char) : unframeChars (front ++ rest) = (unframeChars rest).map (text ++ ·) := by
  have next {line : List Char} (c : Char) {text : List Char}
      (ih : unframeChars line = (unframeChars rest).map (text ++ ·)) :
      (unframeChars line).map (c :: ·) = (unframeChars rest).map (c :: text ++ ·) := by
    rw [ih]
    cases unframeChars rest <;> rfl
  induction h with
  | nil =>
    rw [List.nil_append]
    cases unframeChars rest <;> rfl
  | plain hc _ ih => exact (unframeChars_cons hc _).trans (next _ ih)
  | backslash _ ih => exact (unframeChars_escape rfl _).trans (next _ ih)
  | lineFeed _ ih => exact (unframeChars_escape rfl _).trans (next _ ih)
  | carriageReturn _ ih => exact (unframeChars_escape rfl _).trans (next _ ih)

theorem Spells.unframeChars_eq {line text : List Char} (h : Spells line text) :
    unframeChars line = .ok text := by
  have hread := h.unframeChars_append []
  rw [List.append_nil] at hread
  rw [hread]
  exact congrArg Except.ok (List.append_nil text)

theorem Broken.unframeChars_eq {line : List Char} {reason : FrameFault} (h : Broken line reason) :
    unframeChars line = .error (reason, line) := by
  cases h with
  | dangling => rfl
  | @unknown c line h₁ h₂ h₃ =>
    simp only [unframeChars, if_true, escaped?_eq_none.mpr ⟨h₁, h₂, h₃⟩]

/-- A line spells a text up to its end or up to a broken escape. -/
theorem exists_spells (line : List Char) :
    ∃ front text rest, line = front ++ rest ∧ Spells front text ∧
      (rest = [] ∨ ∃ reason, Broken rest reason) := by
  induction line using unframeChars.induct with
  | case1 => exact ⟨[], [], [], rfl, .nil, .inl rfl⟩
  | case2 => exact ⟨[], [], ['\\'], rfl, .nil, .inr ⟨_, .dangling⟩⟩
  | case3 c hc => exact ⟨[c], [c], [], rfl, .plain hc .nil, .inl rfl⟩
  | case4 d more hd =>
    obtain ⟨h₁, h₂, h₃⟩ := escaped?_eq_none.mp hd
    exact ⟨[], [], '\\' :: d :: more, rfl, .nil, .inr ⟨_, .unknown h₁ h₂ h₃⟩⟩
  | case5 d more decoded hd ih =>
    obtain ⟨front, text, rest, rfl, hs, hr⟩ := ih
    exact ⟨'\\' :: d :: front, decoded :: text, rest, rfl, hs.escape hd, hr⟩
  | case6 c d more hc ih =>
    obtain ⟨front, text, rest, he, hs, hr⟩ := ih
    rw [he]
    exact ⟨c :: front, c :: text, rest, rfl, .plain hc hs, hr⟩

theorem unframeChars_eq_ok_iff {line text : List Char} :
    unframeChars line = .ok text ↔ Spells line text := by
  refine ⟨fun h => ?_, Spells.unframeChars_eq⟩
  obtain ⟨front, found, rest, rfl, hs, rfl | ⟨reason, hb⟩⟩ := exists_spells line
  · rw [List.append_nil] at h ⊢
    rw [hs.unframeChars_eq] at h
    rw [← Except.ok.inj h]
    exact hs
  · rw [hs.unframeChars_append, hb.unframeChars_eq] at h
    cases h

theorem unframeChars_eq_error_iff {line rest : List Char} {reason : FrameFault} :
    unframeChars line = .error (reason, rest) ↔
      ∃ front text, line = front ++ rest ∧ Spells front text ∧ Broken rest reason := by
  constructor
  · intro h
    obtain ⟨front, text, found, rfl, hs, rfl | ⟨cause, hb⟩⟩ := exists_spells line
    · rw [hs.unframeChars_append] at h
      cases h
    · rw [hs.unframeChars_append, hb.unframeChars_eq] at h
      obtain ⟨rfl, rfl⟩ := Prod.mk.inj (Except.error.inj h)
      exact ⟨front, text, rfl, hs, hb⟩
  · rintro ⟨front, text, rfl, hs, hb⟩
    rw [hs.unframeChars_append, hb.unframeChars_eq]
    rfl

/-! ## Frames -/

theorem isLineBreak_of_mem_frameChar (d : Char) : ∀ c ∈ frameChar d, isLineBreak c = false := by
  rw [frameChar]
  split
  · simp [isLineBreak]
  split
  · simp [isLineBreak]
  split
  · simp [isLineBreak]
  · next hn hr =>
    intro c hc
    rw [List.mem_singleton.mp hc]
    simp [isLineBreak, hn, hr]

theorem isLineBreak_of_mem_frame {text : String} :
    ∀ c ∈ (frame text).toList, isLineBreak c = false := by
  intro c hc
  rw [frame, String.toList_ofList] at hc
  obtain ⟨d, -, hc⟩ := List.mem_flatMap.mp hc
  exact isLineBreak_of_mem_frameChar d c hc

theorem unframe_frame (text : String) : unframe (frame text) = .ok text := by
  simp only [unframe, frame, String.toList_ofList, unframeChars_frameChars, String.ofList_toList]

/-- A line without a line break that spells a text is the line of that text. -/
theorem Spells.frameChars_eq {line text : List Char} (h : Spells line text)
    (hl : ∀ c ∈ line, isLineBreak c = false) : frameChars text = line := by
  induction h with
  | nil => rfl
  | @plain c line text hc _ ih =>
    obtain ⟨hb, hrest⟩ := List.forall_mem_cons.mp hl
    have hframe : frameChar c = [c] := by
      obtain ⟨hn, hr⟩ := Bool.or_eq_false_iff.mp hb
      rw [frameChar, if_neg hc, if_neg (beq_eq_false_iff_ne.mp hn), if_neg (beq_eq_false_iff_ne.mp hr)]
    rw [frameChars, List.flatMap_cons, hframe, ← frameChars, ih hrest]
    rfl
  | backslash _ ih | lineFeed _ ih | carriageReturn _ ih =>
    have hrest := (List.forall_mem_cons.mp (List.forall_mem_cons.mp hl).2).2
    rw [frameChars, List.flatMap_cons, ← frameChars, ih hrest]
    rfl

theorem unframe_eq_ok_iff {line text : String} :
    unframe line = .ok text ↔ Spells line.toList text.toList := by
  rw [← unframeChars_eq_ok_iff, unframe]
  cases unframeChars line.toList with
  | ok cs => simp [← String.toList_inj]
  | error e => simp

theorem frame_eq_iff {text line : String} :
    frame text = line ↔ (∀ c ∈ line.toList, isLineBreak c = false) ∧ unframe line = .ok text := by
  constructor
  · rintro rfl
    exact ⟨isLineBreak_of_mem_frame, unframe_frame text⟩
  · rintro ⟨hl, h⟩
    rw [frame, (unframe_eq_ok_iff.mp h).frameChars_eq hl, String.ofList_toList]

theorem unframe_eq_error_iff {line : String} {e : FramingError} :
    unframe line = .error e ↔ ∃ front text rest, line.toList = front ++ rest ∧ Spells front text ∧
      Broken rest e.reason ∧ e.offset = byteLength front := by
  rw [unframe]
  constructor
  · intro h
    cases hu : unframeChars line.toList with
    | ok cs => simp [hu] at h
    | error found =>
      obtain ⟨reason, rest⟩ := found
      obtain ⟨front, text, hl, hs, hb⟩ := unframeChars_eq_error_iff.mp hu
      rw [hu] at h
      rw [← Except.error.inj h]
      exact ⟨front, text, rest, hl, hs, hb, by rw [hl, offsetOf_append]⟩
  · rintro ⟨front, text, rest, hl, hs, hb, ho⟩
    rw [unframeChars_eq_error_iff.mpr ⟨front, text, hl, hs, hb⟩, hl]
    simp only [offsetOf_append, ← ho]

/-- Framing is the inverse of reading a line: the frame of a text is the one line without a line break
that is read as this text. A line is not read exactly if it has a broken escape behind a part that
spells something, and the error is at the backslash of this escape. -/
theorem frame_inverse (line : String) :
    (∀ text, frame text = line ↔
      (∀ c ∈ line.toList, c ≠ '\n' ∧ c ≠ '\r') ∧ unframe line = .ok text) ∧
    ∀ e, unframe line = .error e ↔ ∃ front text rest, line.toList = front ++ rest ∧
      Spells front text ∧ Broken rest e.reason ∧ e.offset = (String.ofList front).utf8ByteSize := by
  constructor
  · intro text
    rw [frame_eq_iff]
    simp only [isLineBreak, Bool.or_eq_false_iff, beq_eq_false_iff_ne]
  · intro e
    simp only [unframe_eq_error_iff, byteLength_eq_utf8ByteSize]

end LiteralBridge.Framing
