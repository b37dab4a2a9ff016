import Mathlib
import LiteralBridge.Proofs.Literal.Limit

/-! # Where readers stop

Whether it succeeds or not, a reader stops at an end of its text, and it runs out of levels only in a
text that opens more brackets than it has levels (`ends_readValue`). So a limit of as many levels as
the text opens brackets is as good as any larger one (`parse_stable`). -/

namespace LiteralBridge.Literal

open Text Grammar

/-- How many brackets a text opens. -/
def openings (text : List Char) : Nat :=
  text.countP isBracket

theorem openings_le_of_suffix {text rest : List Char} (h : rest <:+ text) :
    openings rest ≤ openings text :=
  h.sublist.countP_le

/-- The limit on nesting is exceeded. -/
def Fault.IsTooDeep : Fault → Prop
  | .tooDeep _ => True
  | _ => False

/-- What follows in the text after a reader is an end of that text, and so is the place where it fails.
It fails for the limit on nesting only if the text opens more than `room` brackets. -/
def Ends {α : Type} (room : Nat) (text : List Char) : Except Stop (α × List Char) → Prop
  | .ok (_, rest) => rest <:+ text
  | .error stop => stop.rest <:+ text ∧ (stop.reason.IsTooDeep → room < openings text)

namespace Ends

variable {α β : Type} {room : Nat} {text : List Char}

/-- What ends a part ends the whole. -/
theorem mono {start : List Char} {r : Except Stop (α × List Char)} (h : Ends room text r)
    (hs : text <:+ start) : Ends room start r := by
  cases r with
  | ok read => exact List.IsSuffix.trans h hs
  | error stop =>
    exact ⟨h.1.trans hs, fun hd => Nat.lt_of_lt_of_le (h.2 hd) (openings_le_of_suffix hs)⟩

theorem fail {reason : Fault} {rest : List Char} (hs : rest <:+ text) (hr : ¬ reason.IsTooDeep) :
    Ends (α := α) room text (.error ⟨reason, rest⟩) :=
  ⟨hs, fun hd => absurd hd hr⟩

/-- A reader that goes on where another one stopped. -/
theorem bind {r : Except Stop (α × List Char)} {f : α × List Char → Except Stop (β × List Char)}
    (h : Ends room text r) (hf : ∀ a rest, rest <:+ text → Ends room text (f (a, rest))) :
    Ends room text (r >>= f) := by
  cases r with
  | ok read => exact hf read.1 read.2 h
  | error stop => exact h

/-- A bracket that stands before a text is one more that is opened. -/
theorem bracket {c : Char} {rest : List Char} {r : Except Stop (α × List Char)} (h : Ends room rest r)
    (hc : isBracket c = true) (hs : c :: rest <:+ text) : Ends (room + 1) text r := by
  have hcons : openings (c :: rest) = openings rest + 1 := List.countP_cons_of_pos hc
  have hle := openings_le_of_suffix hs
  cases r with
  | ok read => exact List.IsSuffix.trans h ((List.suffix_cons c rest).trans hs)
  | error stop =>
    refine ⟨h.1.trans ((List.suffix_cons c rest).trans hs), fun hd => ?_⟩
    have hlt := h.2 hd
    omega

end Ends

theorem skipBlank_suffix (text : List Char) : skipBlank text <:+ text :=
  List.dropWhile_suffix _

/-! ## Strings -/

theorem codePoint_eq_error {code : Nat} {reason : Fault} (h : codePoint code = .error reason) :
    reason = .invalidCodePoint code := by
  by_cases hv : code.isValidChar
  · simp [codePoint, hv] at h
  · rw [codePoint, dif_neg hv] at h
    exact (Except.error.inj h).symm

theorem not_isTooDeep_of_map_codePoint {code taken : Nat} {reason : Fault}
    (h : ((codePoint code).map fun decoded => (some decoded, taken)) = .error reason) :
    ¬ reason.IsTooDeep := by
  cases hc : codePoint code with
  | ok c => simp [hc, Except.map] at h
  | error found =>
    obtain rfl := codePoint_eq_error hc
    rw [hc] at h
    exact Except.error.inj h ▸ id

theorem not_isTooDeep_of_readEscape {text : List Char} {reason : Fault}
    (h : readEscape text = .error reason) : ¬ reason.IsTooDeep := by
  unfold readEscape at h
  split at h
  · exact Except.error.inj h ▸ id
  split at h
  · simp at h
  split at h
  · simp at h
  split at h
  · dsimp only at h
    split at h
    · exact Except.error.inj h ▸ id
    split at h
    · exact not_isTooDeep_of_map_codePoint h
    · exact Except.error.inj h ▸ id
  · dsimp only at h
    split at h
    · exact Except.error.inj h ▸ id
    split at h
    · exact not_isTooDeep_of_map_codePoint h
    · exact Except.error.inj h ▸ id

section Scalars

variable (room : Nat)

/-- The inside of a string lies behind the place that is reported if the string is never closed. -/
theorem ends_readBody {start : List Char} (quote : Char) (taken : Nat) {text : List Char}
    (hs : text <:+ start) : Ends room start (readBody start quote taken text) := by
  induction text generalizing taken with
  | nil => cases taken <;> exact .fail (List.suffix_refl _) id
  | cons c rest ih =>
    have hrest : rest <:+ start := (List.suffix_cons c rest).trans hs
    cases taken with
    | succ taken => exact ih taken hrest
    | zero =>
      rw [readBody]
      by_cases hq : c = quote
      · rw [if_pos hq]
        exact hrest
      rw [if_neg hq]
      by_cases hb : c = '\\'
      · rw [if_pos hb]
        cases he : readEscape rest with
        | error reason => exact .fail hs (not_isTooDeep_of_readEscape he)
        | ok read => exact (ih read.2 hrest).bind fun _ _ h => h
      rw [if_neg hb]
      by_cases hl : isLineBreak c = true
      · rw [if_pos hl]
        exact .fail hrest id
      · rw [if_neg hl]
        exact (ih 0 hrest).bind fun _ _ h => h

theorem ends_readString (text : List Char) : Ends room text (readString text) := by
  cases text with
  | nil => exact .fail (List.suffix_refl _) id
  | cons quote rest =>
    exact (ends_readBody room quote 0 (List.suffix_cons quote rest)).bind fun _ _ h => h

/-! ## Numbers -/

theorem readFraction_suffix (text : List Char) : (readFraction text).2 <:+ text := by
  unfold readFraction
  split
  · exact (List.dropWhile_suffix _).trans (List.suffix_cons _ _)
  · exact List.suffix_refl _

theorem readExponentSign_suffix (text : List Char) : (readExponentSign text).2 <:+ text := by
  unfold readExponentSign
  split
  · exact List.suffix_cons _ _
  · exact List.suffix_cons _ _
  · exact List.suffix_refl _

theorem ends_readExponent (text : List Char) : Ends room text (readExponent text) := by
  cases text with
  | nil => exact List.suffix_refl _
  | cons c rest =>
    have hsign : (readExponentSign rest).2 <:+ c :: rest :=
      (readExponentSign_suffix rest).trans (List.suffix_cons c rest)
    rw [readExponent]
    by_cases he : c = 'e' ∨ c = 'E'
    · rw [if_pos he]
      dsimp only
      split
      · exact .fail hsign id
      · exact (List.dropWhile_suffix _).trans hsign
    · rw [if_neg he]
      exact List.suffix_refl _

theorem ends_readNumeral (text : List Char) : Ends room text (readNumeral text) := by
  have hfraction : (readFraction (spanDigits text).2).2 <:+ text :=
    (readFraction_suffix _).trans (List.dropWhile_suffix _)
  have hexponent := (ends_readExponent room (readFraction (spanDigits text).2).2).mono hfraction
  unfold readNumeral
  dsimp only
  split
  · exact .fail (List.suffix_refl _) id
  split
  · next stop he =>
    rw [he] at hexponent
    exact hexponent
  · next exponent after he =>
    rw [he] at hexponent
    split
    · exact .fail hexponent id
    · exact hexponent

theorem not_isTooDeep_of_literal {n : Numeral} {negative : Bool} {reason : Fault}
    (h : n.literal negative = .error reason) : ¬ reason.IsTooDeep := by
  rw [Numeral.literal] at h
  by_cases hf : n.isFloat = true
  · rw [if_pos hf] at h
    cases h
  rw [if_neg hf] at h
  by_cases hz : n.hasLeadingZeros = true
  · rw [if_pos hz] at h
    exact Except.error.inj h ▸ id
  rw [if_neg hz] at h
  by_cases hi : FitsInt (if negative then -ofDecimal n.whole else ofDecimal n.whole)
  · rw [if_pos hi] at h
    cases h
  · rw [if_neg hi] at h
    exact Except.error.inj h ▸ id

theorem ends_readNumber {start text : List Char} (negative : Bool) (hs : text <:+ start) :
    Ends room start (readNumber start negative text) := by
  have hnumeral := (ends_readNumeral room text).mono hs
  rw [readNumber]
  cases hn : readNumeral text with
  | error stop =>
    rw [hn] at hnumeral
    exact hnumeral
  | ok read =>
    rw [hn] at hnumeral
    dsimp only
    cases hl : read.1.literal negative with
    | error reason => exact .fail (List.suffix_refl _) (not_isTooDeep_of_literal hl)
    | ok literal => exact hnumeral

/-! ## Names -/

theorem ends_expect (c : Char) (text : List Char) : Ends room text (expect c text) := by
  cases text with
  | nil => exact .fail (List.suffix_refl _) id
  | cons found rest =>
    rw [expect]
    by_cases hc : found = c
    · rw [if_pos hc]
      exact List.suffix_cons found rest
    · rw [if_neg hc]
      exact .fail (List.suffix_refl _) id

theorem ends_readFloatCall {start text : List Char} (hs : text <:+ start) :
    Ends room start (readFloatCall start text) := by
  rw [readFloatCall]
  refine ((ends_expect room '(' text).mono hs).bind fun _ afterOpen hopen => ?_
  have hargument := (skipBlank_suffix afterOpen).trans hopen
  dsimp only
  split
  · refine ((ends_readString room _).mono hargument).bind fun argument after hafter => ?_
    refine ((ends_expect room ')' _).mono ((skipBlank_suffix after).trans hafter)).bind
      fun _ next hnext => ?_
    dsimp only
    split
    · exact hnext
    · exact .fail (List.suffix_refl _) id
  · exact .fail hargument id

theorem ends_readSetCall (text : List Char) : Ends room text (readSetCall text) := by
  rw [readSetCall]
  refine (ends_expect room '(' text).bind fun _ afterOpen hopen => ?_
  exact ((ends_expect room ')' _).mono ((skipBlank_suffix afterOpen).trans hopen)).bind
    fun _ _ h => h

theorem ends_readName (text : List Char) : Ends room text (readName text) := by
  have hrest : text.dropWhile isNameRest <:+ text := List.dropWhile_suffix _
  unfold readName
  split
  · exact hrest
  · exact hrest
  · exact hrest
  · exact hrest
  · exact hrest
  · exact ends_readFloatCall room hrest
  · exact (ends_readSetCall room _).mono hrest
  · exact .fail (List.suffix_refl _) id

theorem ends_readNegatedName {start text : List Char} (hs : text <:+ start) :
    Ends room start (readNegatedName start text) := by
  rw [readNegatedName]
  refine ((ends_readName room text).mono hs).bind fun literal after hafter => ?_
  dsimp only
  split
  · exact hafter
  · exact .fail (List.suffix_refl _) id

theorem ends_readSigned (text : List Char) : Ends room text (readSigned text) := by
  unfold readSigned
  split
  · next rest =>
    split
    · exact ends_readNegatedName room (List.suffix_cons _ rest)
    · exact ends_readNumber room true (List.suffix_cons _ rest)
  · exact ends_readNumber room false (List.suffix_refl _)

end Scalars

/-! ## Brackets -/

section Brackets

variable {room : Nat} {item : Reader Literal} (hi : ∀ text, Ends room text (item text))
include hi

theorem ends_readItems (opening closing : Char) (bound : Nat) (text : List Char) :
    Ends room text (readItems item opening closing bound text) := by
  induction bound generalizing text with
  | zero => exact .fail (List.suffix_refl _) id
  | succ bound ih =>
    have hstart := skipBlank_suffix text
    rw [readItems]
    dsimp only
    split
    · exact (List.tail_suffix _).trans hstart
    refine ((hi _).mono hstart).bind fun literal after hafter => ?_
    have hmark := (skipBlank_suffix after).trans hafter
    dsimp only
    split
    · exact .fail (List.nil_suffix) id
    · next c rest hs =>
      rw [hs] at hmark
      have hrest := (List.suffix_cons c rest).trans hmark
      split
      · exact ((ih rest).mono hrest).bind fun _ _ h => h
      split
      · exact hrest
      · exact .fail hmark id

omit hi in
theorem ends_readBraceSeparator (text : List Char) : Ends room text (readBraceSeparator text) := by
  have hmark := skipBlank_suffix text
  unfold readBraceSeparator
  split
  · exact .fail (List.nil_suffix) id
  · next c rest hs =>
    rw [hs] at hmark
    have hrest := (List.suffix_cons c rest).trans hmark
    have hstart := (skipBlank_suffix rest).trans hrest
    split
    · exact hrest
    split
    · dsimp only
      split
      · exact (List.tail_suffix _).trans hstart
      · exact hstart
    · exact .fail hmark id

theorem ends_readEntry (text : List Char) : Ends room text (readEntry item text) := by
  rw [readEntry]
  refine (hi text).bind fun key after hafter => ?_
  refine ((ends_expect room ':' _).mono ((skipBlank_suffix after).trans hafter)).bind
    fun _ rest hrest => ?_
  exact ((hi rest).mono hrest).bind fun _ _ h => h

omit hi in
theorem ends_readContinued {α : Type} {read : Reader α} (hr : ∀ text, Ends room text (read text))
    (bound : Nat) (text : List Char) : Ends room text (readContinued read bound text) := by
  induction bound generalizing text with
  | zero => exact .fail (List.suffix_refl _) id
  | succ bound ih =>
    rw [readContinued]
    refine (ends_readBraceSeparator text).bind fun more after hafter => ?_
    cases more with
    | false => exact hafter
    | true =>
      refine ((hr after).mono hafter).bind fun x rest hrest => ?_
      exact ((ih rest).mono hrest).bind fun _ _ h => h

theorem ends_readBraces (bound : Nat) (text : List Char) :
    Ends room text (readBraces item bound text) := by
  have hstart := skipBlank_suffix text
  simp only [readBraces, readMembers_eq, readEntries_eq]
  split
  · exact (List.tail_suffix _).trans hstart
  refine ((hi _).mono hstart).bind fun first after hafter => ?_
  have hseparator := (skipBlank_suffix after).trans hafter
  dsimp only
  split
  · refine ((hi _).mono ((List.tail_suffix _).trans hseparator)).bind fun value rest hrest => ?_
    exact ((ends_readContinued (ends_readEntry hi) bound rest).mono hrest).bind fun _ _ h => h
  · exact ((ends_readContinued hi bound _).mono hseparator).bind fun _ _ h => h

end Brackets

/-! ## Literals -/

/-- Where no bracket stands, it does not matter which levels are left. -/
theorem ends_readLevel_of_stops (limit bound : Nat) (item? : Option (Reader Literal)) (room : Nat)
    {text : List Char} (hb : Stops isBracket (skipBlank text)) :
    Ends room text (readLevel limit bound item? text) := by
  have hmark := skipBlank_suffix text
  cases hs : skipBlank text with
  | nil =>
    simp only [readLevel, hs]
    exact .fail (List.nil_suffix) id
  | cons c rest =>
    rw [hs] at hmark hb
    have hb' : ¬(c = '[' ∨ c = '(' ∨ c = '{') := by
      simpa [isBracket, and_assoc] using hb
    simp only [readLevel, hs, if_neg hb']
    split
    · exact ((ends_readString room _).mono hmark).bind fun _ _ h => h
    split
    · exact (ends_readSigned room _).mono hmark
    split
    · exact (ends_readName room _).mono hmark
    · exact .fail hmark id

theorem exists_bracket_of_not_stops {text : List Char} (hb : ¬ Stops isBracket text) :
    ∃ c rest, text = c :: rest ∧ isBracket c = true ∧ (c = '[' ∨ c = '(' ∨ c = '{') := by
  cases text with
  | nil => exact absurd (stops_nil _) hb
  | cons c rest =>
    have hc : isBracket c = true := by simpa using hb
    exact ⟨c, rest, rfl, hc, by simpa [isBracket, or_assoc] using hc⟩

theorem ends_readLevel_some (limit bound : Nat) {room : Nat} {item : Reader Literal}
    (hi : ∀ text, Ends room text (item text)) (text : List Char) :
    Ends (room + 1) text (readLevel limit bound (some item) text) := by
  by_cases hb : Stops isBracket (skipBlank text)
  · exact ends_readLevel_of_stops limit bound (some item) (room + 1) hb
  obtain ⟨c, rest, hs, hc, hopen⟩ := exists_bracket_of_not_stops hb
  refine Ends.bracket ?_ hc (hs ▸ skipBlank_suffix text)
  simp only [readLevel, hs, if_pos hopen]
  split
  · exact (ends_readItems hi '[' ']' bound rest).bind fun _ _ h => h
  split
  · exact (ends_readItems hi '(' ')' bound rest).bind fun _ _ h => h
  · exact ends_readBraces hi bound rest

/-- Without a level left, the reader runs out of levels at a bracket that the text opens. -/
theorem ends_readLevel_none (limit bound : Nat) (text : List Char) :
    Ends 0 text (readLevel limit bound Option.none text) := by
  by_cases hb : Stops isBracket (skipBlank text)
  · exact ends_readLevel_of_stops limit bound Option.none 0 hb
  obtain ⟨c, rest, hs, hc, hopen⟩ := exists_bracket_of_not_stops hb
  have hmark : c :: rest <:+ text := hs ▸ skipBlank_suffix text
  simp only [readLevel, hs, if_pos hopen]
  refine ⟨(List.suffix_cons c rest).trans hmark, fun _ => ?_⟩
  have hle := openings_le_of_suffix hmark
  rw [openings, List.countP_cons_of_pos hc] at hle
  omega

/-- A reader of literals stops at an end of its text. It runs out of levels only if the text opens more
brackets than there are levels. -/
theorem ends_readValue (limit bound room : Nat) (text : List Char) :
    Ends room text (readValue limit bound room text) := by
  induction room generalizing text with
  | zero => exact ends_readLevel_none limit bound text
  | succ room ih => exact ends_readLevel_some limit bound ih text

/-! ## Whole texts -/

theorem readText_eq_error {limit : Nat} {text : List Char} {stop : Stop}
    (h : readText limit text = .error stop) :
    stop.rest <:+ text ∧ (stop.reason.IsTooDeep → limit < openings text) := by
  have hends := ends_readValue limit (text.length + 1) limit text
  rcases bind_eq_error.mp h with hv | ⟨⟨literal, after⟩, hv, h⟩
  · rw [hv] at hends
    exact hends
  · rw [hv] at hends
    have hs := (skipBlank_suffix after).trans hends
    dsimp only at h
    split at h
    · cases h
    · exact Except.error.inj h ▸ ⟨hs, False.elim⟩

/-- An error is found where an end of the text begins. -/
theorem parse_eq_error {limit : Nat} {text : String} {e : ParseError}
    (h : parse limit text = .error e) :
    ∃ rest, rest <:+ text.toList ∧ e.offset = offsetOf text.toList rest ∧
      (e.reason.IsTooDeep → limit < openings text.toList) := by
  rw [parse] at h
  cases hr : readText limit text.toList with
  | ok literal => simp [hr] at h
  | error stop =>
    rw [hr] at h
    obtain rfl := Except.error.inj h
    obtain ⟨hs, hd⟩ := readText_eq_error hr
    exact ⟨stop.rest, hs, rfl, hd⟩

/-- A limit that was not exceeded could be larger. -/
theorem parse_eq_of_not_isTooDeep {limit limit' : Nat} (h : limit ≤ limit') {text : String}
    (hd : ∀ e, parse limit text = .error e → ¬ e.reason.IsTooDeep) :
    parse limit text = parse limit' text := by
  rcases parse_cutAt h text with he | ⟨offset, he⟩
  · exact he
  · exact absurd trivial (hd _ he)

/-- A larger limit reads what a smaller one does, as the same literal, which is no deeper than the smaller
limit, and finds the same error at the same place unless the smaller limit is exceeded. It never is if
it allows as many levels as the text opens brackets, so that all limits from there on agree. -/
theorem parse_stable {limit limit' : Nat} (h : limit ≤ limit') (text : String) :
    (∀ literal, parse limit text = .ok literal →
      parse limit' text = .ok literal ∧ literal.depth ≤ limit) ∧
    (∀ e, parse limit text = .error e → ¬ e.reason.IsTooDeep → parse limit' text = .error e) ∧
    (openings text.toList ≤ limit →
      (∀ e, parse limit text = .error e → ¬ e.reason.IsTooDeep) ∧
        parse limit' text = parse limit text) := by
  refine ⟨fun literal hp => ⟨?_, depth_le_of_parse hp⟩, fun e hp hd => ?_, fun ho => ?_⟩
  · rw [← parse_eq_of_not_isTooDeep h (by simp [hp]), hp]
  · have hd : ∀ found, parse limit text = .error found → ¬ found.reason.IsTooDeep := by
      intro found hf
      rw [hp] at hf
      exact Except.error.inj hf ▸ hd
    rw [← parse_eq_of_not_isTooDeep h hd, hp]
  · have hd : ∀ e, parse limit text = .error e → ¬ e.reason.IsTooDeep := by
      intro e hp hdeep
      obtain ⟨rest, -, -, hlt⟩ := parse_eq_error hp
      exact absurd (hlt hdeep) (Nat.not_lt.mpr ho)
    exact ⟨hd, (parse_eq_of_not_isTooDeep h hd).symm⟩

set_option maxRecDepth 4000 in
/-- An integer with a leading zero, two levels deep. One level does not suffice to get there. -/
theorem parse_stable_leading_zero :
    let text := "[(1), \x7b07"
    2 ≤ 7 ∧ parse 2 text = .error ⟨7, .leadingZeros⟩ ∧ parse 7 text = .error ⟨7, .leadingZeros⟩ ∧
      parse 1 text = .error ⟨2, .tooDeep 1⟩ := by
  intro text
  have hp : parse 2 text = .error ⟨7, .leadingZeros⟩ := by cbv
  have hs : parse 1 text = .error ⟨2, .tooDeep 1⟩ := by cbv
  obtain ⟨-, herror, -⟩ := parse_stable (by decide : 2 ≤ 7) text
  exact ⟨by decide, hp, herror _ hp id, hs⟩

end LiteralBridge.Literal
