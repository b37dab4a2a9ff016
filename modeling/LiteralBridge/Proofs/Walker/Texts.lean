import LiteralBridge.Proofs.Walker.Brackets

/-! # Walking over whole texts

A walk over a literal opens one bracket for every level that it goes down, so the levels that a reader
has left are what the open brackets leave of the limit (`retraces_value`). A walk over a whole text ends
with what `parse` gives, it never left the text on the way, and nothing else stopped it
(`parse_stays_inside`). -/

namespace LiteralBridge.Literal

open Text Grammar
open String.Pos.Raw (IsValid)

namespace Walker

variable (text : String) (limit : Nat) (item : Walker Literal)

/-- Takes a literal that begins with the bracket `c`. -/
def bracketed (c : Char) : Walker Literal :=
  if c = '[' then do
    let read ← items text limit item '[' ']'
    return .list read.1
  else if c = '(' then do
    let read ← items text limit item '(' ')'
    return ofParentheses read
  else braces text limit item

def level : Walker Literal := do
  skipWhile text isBlank
  match ← peek text with
  | Option.none => fail .endOfText
  | some c =>
    if c = '[' ∨ c = '(' ∨ c = '{' then bracketed text limit item c
    else if c = '"' ∨ c = '\'' then
      let s ← string text
      return .str s
    else if c = '-' ∨ c.isDigit then number text
    else if isNameStart c then name text
    else fail (.unexpected c)

/-- Takes one literal, in at most so many calls of itself one inside the other. -/
def value : (calls : Nat) → Walker Literal
  | 0 => throw .endless
  | calls + 1 => level text limit (value calls)

def document : Walker Literal := do
  let literal ← value text limit (limit + 1)
  skipWhile text isBlank
  let here ← cursor
  if here.pos = text.utf8ByteSize then return literal else fail .trailingText

end Walker

section Texts

variable {text : String} {limit depth : Nat} {rest : List Char} {t : Trail} {item : Walker Literal}

/-! ## Literals -/

theorem readLevel_skipBlank (limit bound : Nat) (item? : Option (Reader Literal))
    (text : List Char) :
    readLevel limit bound item? (skipBlank text) = readLevel limit bound item? text := by
  simp only [readLevel, skipBlank_skipBlank]

theorem skipBlank_bracket {c : Char} (hb : c = '[' ∨ c = '(' ∨ c = '{') (rest : List Char) :
    skipBlank (c :: rest) = c :: rest := by
  have hc : isBlank c = false := by
    rcases hb with rfl | rfl | rfl <;> decide
  exact skipBlank_eq_self (stops_cons.mpr hc)

/-- Where the limit allows no more brackets, the walk halts behind one as the reader without a level
does. -/
theorem accords_bracketed_of_le {c : Char} (bound : Nat) (hd : limit ≤ depth)
    (hb : c = '[' ∨ c = '(' ∨ c = '{') (h : Stands text limit depth (c :: rest) t) :
    Accords text limit depth ((Walker.bracketed text limit item c).run t)
      (readLevel limit bound Option.none (c :: rest)) := by
  have hread : readLevel limit bound Option.none (c :: rest) = .error ⟨.tooDeep limit, rest⟩ := by
    simp only [readLevel, skipBlank_bracket hb, if_pos hb]
  rw [hread]
  rcases hb with rfl | rfl | rfl
  · exact (accords_items_of_le hd h).halt
  · exact (accords_items_of_le hd h).halt
  · exact accords_braces_of_le hd h

theorem accords_bracketed {c : Char} {room : Nat} {read : Reader Literal} (hd : depth < limit)
    (hr : Retraces text limit (depth + 1) item read) (he : ∀ text, Ends room text (read text))
    (hb : c = '[' ∨ c = '(' ∨ c = '{') (h : Stands text limit depth (c :: rest) t) :
    Accords text limit depth ((Walker.bracketed text limit item c).run t)
      (readLevel limit (text.length + 1) (some read) (c :: rest)) := by
  have hs : Shortens read := Ends.shortens he
  simp only [readLevel, skipBlank_bracket hb, if_pos hb]
  rcases hb with rfl | rfl | rfl
  · exact (accords_items hr hs hd h).bind fun _ h => h.pure _
  · exact (accords_items hr hs hd h).bind fun _ h => h.pure _
  · exact accords_braces hr he hd h

/-- A walk over a literal ends as the reader does, if that holds for those that begin with a bracket. -/
theorem retraces_level {bound : Nat} {item? : Option (Reader Literal)}
    (hopen : ∀ {c rest t}, (c = '[' ∨ c = '(' ∨ c = '{') → Stands text limit depth (c :: rest) t →
      Accords text limit depth ((Walker.bracketed text limit item c).run t)
        (readLevel limit bound item? (c :: rest))) :
    Retraces text limit depth (Walker.level text limit item) (readLevel limit bound item?) := by
  intro rest t h
  rw [← readLevel_skipBlank]
  have hskip := skipBlank_skipBlank rest
  refine h.skipBlanks.then fun h => h.peek.then fun h => ?_
  cases hs : skipBlank rest with
  | nil =>
    rw [hs] at h
    exact h.fail _
  | cons c tail =>
    rw [hs] at h hskip
    rw [List.head?_cons]
    dsimp only
    by_cases hb : c = '[' ∨ c = '(' ∨ c = '{'
    · rw [if_pos hb]
      exact hopen hb h
    simp only [readLevel, hskip, if_neg hb]
    by_cases hq : c = '"' ∨ c = '\''
    · rw [if_pos hq, if_pos hq]
      exact (accords_string h hq).bind fun _ h => h.pure _
    rw [if_neg hq, if_neg hq]
    split
    · exact retraces_number h
    split
    · exact retraces_name h
    · exact h.fail _

/-- A walk over a literal ends as the reader does that has as many levels left as the limit allows
brackets. -/
theorem retraces_value {room : Nat} (hd : depth + room = limit) :
    Retraces text limit depth (Walker.value text limit (room + 1))
      (readValue limit (text.length + 1) room) := by
  induction room generalizing depth with
  | zero => exact retraces_level (accords_bracketed_of_le _ (Nat.le_of_eq hd.symm))
  | succ room ih =>
    have hlt : depth < limit := by omega
    have hitem : Retraces text limit (depth + 1) (Walker.value text limit (room + 1))
        (readValue limit (text.length + 1) room) := ih (by omega)
    intro rest t
    exact retraces_level (accords_bracketed hlt hitem (ends_readValue limit (text.length + 1) room))

/-! ## Whole texts -/

theorem Stands.start (text : String) (limit : Nat) :
    Stands text limit 0 text.toList Trail.start where
  orderly := .start text limit
  suffix := List.suffix_rfl
  cursor_eq := by simp [Trail.start, offsetOf]

/-- A walk over a text ends as the reader does. -/
theorem accords_document (text : String) (limit : Nat) :
    Accords text limit 0 ((Walker.document text limit).run Trail.start)
      (readText limit text.toList >>= fun literal => .ok (literal, [])) := by
  rw [readText, String.length_toList, bind_assoc]
  refine (retraces_value (Nat.zero_add limit) (.start text limit)).bind fun {literal after _} _ h =>
    h.skipBlanks.then fun h => h.cursor.then fun h => ?_
  dsimp only
  cases hs : skipBlank after with
  | nil =>
    rw [hs] at h
    rw [if_pos ((offsetOf_eq_utf8ByteSize_iff h.suffix).mpr rfl)]
    exact h.pure _
  | cons c tail =>
    rw [hs] at h
    rw [if_neg (mt (offsetOf_eq_utf8ByteSize_iff h.suffix).mp (List.cons_ne_nil c tail))]
    exact h.fail _

end Texts

/-- A walk over a text ends with what `parse` gives, be it a literal at the end of the text or an error
between two characters of it. On the way the cursor was always between two characters, with no more
open brackets than the limit allows, and every turn of a loop took a part of the text. -/
theorem parse_stays_inside (limit : Nat) (text : String) :
    ∃ t : Trail, t.Orderly text limit ∧ (∀ c ∈ t.visited, c.Inside text limit) ∧
      match parse limit text with
      | .ok literal =>
        (Walker.document text limit).run Trail.start = .ok literal t ∧
          t.cursor = ⟨text.utf8ByteSize, 0⟩
      | .error e =>
        (Walker.document text limit).run Trail.start = .error (.fault e) t ∧
          e.offset ≤ text.utf8ByteSize ∧ IsValid text ⟨e.offset⟩ := by
  have h := accords_document text limit
  rw [parse]
  cases hr : readText limit text.toList with
  | ok literal =>
    rw [hr] at h
    obtain ⟨t, hw, hs⟩ := h
    refine ⟨t, hs.orderly, hs.orderly.inside, hw, ?_⟩
    rw [hs.cursor_eq, (offsetOf_eq_utf8ByteSize_iff List.nil_suffix).mpr rfl]
  | error stop =>
    rw [hr] at h
    obtain ⟨hs, t, ho, hw⟩ := h
    have hv := isValid_offsetOf hs
    exact ⟨t, ho, ho.inside, hw, hv.le_rawEndPos, hv⟩

-- A bracket opens behind its character, without another byte.
set_option maxRecDepth 4000 in
example :
    match (Walker.document "['é" 1).run Trail.start with
    | .error (.fault e) t => e = ⟨1, .unclosedString⟩ ∧ t.visited.map Cursor.pos = [4, 2, 1, 1, 0]
    | _ => False := by
  cbv

end LiteralBridge.Literal
