import LiteralBridge.Json.Fields
import LiteralBridge.Json.Render

/-! # JSON that is written and read back

A reader takes a text if it gives the same result whatever value or bracket the text stands before
(`Takes`). Strings and integers are taken as they are written, and an object is taken if the values
of its members are (`TakesMembers.readContainer`). -/

namespace LiteralBridge.Json

open Text

def ofChars (cs : List Char) : List Symbol :=
  cs.map .char

@[simp] theorem ofChars_nil : ofChars [] = [] := rfl

@[simp] theorem ofChars_cons (c : Char) (cs : List Char) :
    ofChars (c :: cs) = .char c :: ofChars cs := rfl

@[simp] theorem ofChars_append (cs ds : List Char) : ofChars (cs ++ ds) = ofChars cs ++ ofChars ds :=
  List.map_append

@[simp] theorem length_ofChars (cs : List Char) : (ofChars cs).length = cs.length :=
  List.length_map ..

/-! ## Single characters -/

theorem skipSpace_cons {c : Char} (hc : isSpace (.char c) = false) (rest : List Symbol) :
    skipSpace (.char c :: rest) = .char c :: rest := by
  simp [skipSpace, hc]

theorem readChar_cons {c : Char} (hc : isSpace (.char c) = false) (rest : List Symbol) :
    readChar c (.char c :: rest) = some rest := by
  simp [readChar, skipSpace_cons hc]

theorem readSeparator_comma (closing : Char) (rest : List Symbol) :
    readSeparator closing (.char ',' :: rest) = some (true, rest) := by
  rw [readSeparator, skipSpace_cons (by decide)]
  rfl

theorem readSeparator_closing {closing : Char} (hs : isSpace (.char closing) = false)
    (hc : closing ≠ ',') (rest : List Symbol) :
    readSeparator closing (.char closing :: rest) = some (false, rest) := by
  simp [readSeparator, skipSpace_cons hs, hc]

/-! ## Strings -/

/-- The symbols of an escape are skipped once it is read. -/
theorem readBody_taken (escape rest : List Symbol) :
    readBody escape.length (escape ++ rest) = readBody 0 rest := by
  induction escape with
  | nil => rfl
  | cons _ escape ih => exact ih

theorem mapM_char?_ofChars (cs : List Char) : (ofChars cs).mapM Symbol.char? = some cs := by
  induction cs with
  | nil => rfl
  | cons c cs ih => simp [List.mapM_cons, ih, Symbol.char?]

theorem readHex4_hexDigits {n : Nat} (hn : n < 0x10000) (rest : List Symbol) :
    readHex4 (ofChars (hexDigits 4 n) ++ rest) = some n := by
  have ht : (ofChars (hexDigits 4 n) ++ rest).take 4 = ofChars (hexDigits 4 n) :=
    List.take_left' (by simp [length_hexDigits])
  rw [readHex4, ht, mapM_char?_ofChars]
  simp only [length_hexDigits, if_true, readHex_hexDigits]
  exact congrArg some (Nat.mod_eq_of_lt hn)

/-- A control character is read back from its number. -/
theorem readEscape_hexDigits {c : Char} (hc : c.toNat < 32) (rest : List Symbol) :
    readEscape (.char 'u' :: (ofChars (hexDigits 4 c.toNat) ++ rest)) = some (c, 5) := by
  have hh := readHex4_hexDigits (Nat.lt_trans hc (by decide)) rest
  have ht : isTrailingHalf c.toNat = false := by simp [isTrailingHalf]; omega
  have hl : isLeadingHalf c.toNat = false := by simp [isLeadingHalf]; omega
  simp [readEscape, simpleEscape?, readCodePoint, hh, ht, hl]

/-- A character of a string is read back from what is written for it. -/
theorem readBody_escapeChar (c : Char) (rest : List Symbol) :
    readBody 0 (ofChars (escapeChar c) ++ rest) =
      (readBody 0 rest).map fun (cs, after) => (c :: cs, after) := by
  have simple {letter : Char} (hl : simpleEscape? letter = some c) :
      readBody 0 (.char '\\' :: .char letter :: rest) =
        (readBody 0 rest).map fun (cs, after) => (c :: cs, after) := by
    simp [readBody, readEscape, hl]
  rw [escapeChar]
  split
  · next h => subst h; exact simple rfl
  split
  · next h => subst h; exact simple rfl
  split
  · next h => subst h; exact simple rfl
  split
  · next h => subst h; exact simple rfl
  split
  · next h => subst h; exact simple rfl
  split
  · next h => subst h; exact simple rfl
  split
  · next h => subst h; exact simple rfl
  split
  · next hc =>
    -- without a letter of its own the character is written by its number
    have hskip := readBody_taken (ofChars (hexDigits 4 c.toNat)) rest
    rw [length_ofChars, length_hexDigits] at hskip
    simp [readBody, readEscape_hexDigits hc, hskip]
  · next hq hb _ _ _ _ _ hc =>
    simp [readBody, hq, hb, hc]

theorem readBody_flatMap_escapeChar (cs : List Char) (rest : List Symbol) :
    readBody 0 (ofChars (cs.flatMap escapeChar) ++ .char '"' :: rest) = some (cs, rest) := by
  induction cs with
  | nil => rfl
  | cons c cs ih =>
    rw [List.flatMap_cons, ofChars_append, List.append_assoc, readBody_escapeChar, ih]
    rfl

/-- A string is read back, whatever stands behind it. -/
theorem readString_renderString (s : String) (rest : List Symbol) :
    readString (ofChars (renderString s) ++ rest) = some (s, rest) := by
  have hb := readBody_flatMap_escapeChar s.toList rest
  simp [readString, renderString, readChar_cons (c := '"') (by decide), hb]

/-! ## Readers of values -/

/-- What can follow a value: the end, a comma or a closing bracket. -/
def Follows : List Symbol → Prop
  | [] => True
  | .char c :: _ => c = ',' ∨ c = '}' ∨ c = ']'
  | .stray _ :: _ => False

/-- The reader takes the text in front of whatever can follow a value. -/
def Takes {α : Type} (read : Reader α) (text : List Char) (a : α) : Prop :=
  ∀ rest, Follows rest → read (ofChars text ++ rest) = some (a, rest)

theorem takes_readString (s : String) : Takes readString (string s).render s := by
  intro rest _
  rw [render]
  exact readString_renderString s rest

theorem Takes.map {α β : Type} {read : Reader α} {text : List Char} {a : α} (h : Takes read text a)
    (f : α → β) : Takes (fun cs => (read cs).map fun (v, after) => (f v, after)) text (f a) := by
  intro rest hr
  simp only [h rest hr, Option.map_some]

theorem Takes.readOnce {α : Type} {read : Reader α} {text : List Char} {a : α}
    (h : Takes read text a) : Takes (readOnce read none) text (some a) :=
  h.map some

/-! ## Integers -/

theorem spanDigits_of_follows {rest : List Symbol} (hr : Follows rest) :
    spanDigits rest = ([], rest) := by
  match rest with
  | [] => rfl
  | .stray _ :: _ => rfl
  | .char c :: _ => rcases hr with rfl | rfl | rfl <;> rfl

theorem spanDigits_ofChars {digits : List Char} (hd : ∀ c ∈ digits, c.isDigit = true)
    {rest : List Symbol} (hr : Follows rest) : spanDigits (ofChars digits ++ rest) = (digits, rest) := by
  induction digits with
  | nil => exact spanDigits_of_follows hr
  | cons c digits ih =>
    obtain ⟨hc, hd⟩ := List.forall_mem_cons.mp hd
    simp [spanDigits, hc, ih hd]

theorem isWhole_decimal (n : Nat) : isWhole (decimal n) = true := by
  by_cases hz : (decimal n).head? = some '0'
  · rw [eq_zero_of_head_decimal hz]
    rfl
  · cases hd : decimal n with
    | nil => exact absurd hd (decimal_ne_nil n)
    | cons c rest =>
      rw [hd, List.head?_cons, Option.some.injEq] at hz
      rw [isWhole]
      · simp [hz]
      · intro hc
        exact absurd hc hz

theorem readFraction_of_follows {rest : List Symbol} (hr : Follows rest) :
    readFraction rest = some ([], rest) := by
  match rest with
  | [] => rfl
  | .stray _ :: _ => rfl
  | .char c :: _ => rcases hr with rfl | rfl | rfl <;> rfl

theorem readExponent_of_follows {rest : List Symbol} (hr : Follows rest) :
    readExponent rest = some (none, rest) := by
  match rest with
  | [] => rfl
  | .stray _ :: _ => rfl
  | .char c :: _ => rcases hr with rfl | rfl | rfl <;> rfl

theorem isSpace_of_isDigit {c : Char} (hc : c.isDigit = true) : isSpace (.char c) = false := by
  cases hs : isSpace (.char c) with
  | false => rfl
  | true =>
    simp only [isSpace, Bool.or_eq_true, beq_iff_eq] at hs
    rcases hs with ((rfl | rfl) | rfl) | rfl <;> cases hc

theorem takes_readNumeral (n : Nat) : Takes readNumeral (decimal n) ⟨false, decimal n, [], none⟩ := by
  intro rest hr
  have hdigits : ∀ c ∈ decimal n, c.isDigit = true := fun _ hc => isDigit_of_mem_decimal hc
  have hs := spanDigits_ofChars hdigits hr
  have hw := isWhole_decimal n
  cases hd : decimal n with
  | nil => exact absurd hd (decimal_ne_nil n)
  | cons c digits =>
    rw [hd] at hs hw hdigits
    have hc := hdigits c List.mem_cons_self
    have hsign : c ≠ '-' := by
      rintro rfl
      cases hc
    rw [ofChars_cons, List.cons_append] at hs ⊢
    simp [readNumeral, skipSpace_cons (isSpace_of_isDigit hc), hsign, hs, hw,
      readFraction_of_follows hr, readExponent_of_follows hr]

theorem takes_readNatBelow {n bound : Nat} (hn : n < bound) :
    Takes (readNatBelow bound) (decimal n) n := by
  intro rest hr
  simp [readNatBelow, takes_readNumeral n rest hr, ofDecimal_decimal, hn]

/-! ## Objects -/

/-- From the first state, the members are read one after the other and leave the second state. -/
inductive TakesMembers {σ : Type} (value : σ → String → Reader σ) :
    σ → List (String × Json) → σ → Prop where
  | nil (state : σ) : TakesMembers value state [] state
  | cons {state between last : σ} {key : String} {j : Json} {rest : List (String × Json)}
    (first : Takes (value state key) j.render between) (others : TakesMembers value between rest last) :
    TakesMembers value state ((key, j) :: rest) last

section Members

variable {σ : Type} {value : σ → String → Reader σ} {state last : σ} {key : String} {j : Json}
  {members : List (String × Json)}

theorem takes_readMember (h : Takes (value state key) j.render last) :
    Takes (readMember value state) (renderString key ++ ':' :: j.render) last := by
  intro rest hr
  simp [readMember, readString_renderString, readChar_cons (c := ':') (by decide), h rest hr]

theorem follows_comma (rest : List Symbol) : Follows (.char ',' :: rest) :=
  .inl rfl

theorem follows_closing (rest : List Symbol) : Follows (.char '}' :: rest) :=
  .inr (.inl rfl)

theorem readSeparator_brace (rest : List Symbol) :
    readSeparator '}' (.char '}' :: rest) = some (false, rest) :=
  readSeparator_closing (by decide) (by decide) rest

theorem renderMembers_cons (key : String) (j : Json) (members : List (String × Json)) :
    renderMembers ((key, j) :: members) =
      (renderString key ++ ':' :: j.render) :: renderMembers members := by
  rw [renderMembers]

/-- Members begin with the quote of their first key. -/
theorem joined_renderMembers_cons (member : String × Json) (others : List (String × Json)) :
    ∃ rest, joined (renderMembers (member :: others)) = '"' :: rest := by
  obtain ⟨key, j⟩ := member
  cases others with
  | nil => exact ⟨_, rfl⟩
  | cons next more => exact ⟨_, rfl⟩

/-- By induction on the members. The last of them is the one before the closing brace. -/
theorem TakesMembers.readItems_eq (h : TakesMembers value state members last) (hne : members ≠ [])
    {bound : Nat} (hb : members.length ≤ bound) (rest : List Symbol) :
    readItems '}' (readMember value) bound state
      (ofChars (joined (renderMembers members)) ++ .char '}' :: rest) = some (last, rest) := by
  induction h generalizing bound with
  | nil => exact absurd rfl hne
  | @cons state between last key j others first hothers ih =>
    cases bound with
    | zero => simp at hb
    | succ bound =>
      cases others with
      | nil =>
        cases hothers
        have hm := takes_readMember first _ (follows_closing rest)
        simp only [renderMembers, joined]
        rw [readItems, hm]
        simp [readSeparator_brace]
      | cons next more =>
        have hi := ih (by simp) (Nat.le_of_succ_le_succ hb)
        have hm := takes_readMember first _ (follows_comma
          (ofChars (joined (renderMembers (next :: more))) ++ .char '}' :: rest))
        obtain ⟨nextKey, nextValue⟩ := next
        simp only [renderMembers_cons, joined] at hi hm ⊢
        rw [ofChars_append, ofChars_cons, List.append_assoc, List.cons_append, readItems, hm]
        simp [readSeparator_comma, hi]

/-- The members of an object are read from behind its opening brace. -/
theorem TakesMembers.readContainer_eq (h : TakesMembers value state members last)
    {bound : Nat} (hb : members.length ≤ bound) (rest : List Symbol) :
    readContainer '}' (readMember value) bound state
      (ofChars (joined (renderMembers members)) ++ .char '}' :: rest) = some (last, rest) := by
  cases members with
  | nil =>
    cases h
    simp [readContainer, renderMembers, joined, readChar_cons (c := '}') (by decide)]
  | cons member others =>
    have hi := h.readItems_eq (by simp) hb rest
    obtain ⟨inside, hq⟩ := joined_renderMembers_cons member others
    have hopen : readChar '}' (.char '"' :: (ofChars inside ++ .char '}' :: rest)) = none := by
      rw [readChar, skipSpace_cons (by decide)]
      rfl
    rw [hq, ofChars_cons, List.cons_append] at hi ⊢
    rw [readContainer, hopen]
    exact hi

end Members

end LiteralBridge.Json
