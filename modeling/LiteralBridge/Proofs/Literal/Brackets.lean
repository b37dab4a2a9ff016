import LiteralBridge.Proofs.Literal.Scalars

/-! # Reading literals in brackets

The loops between brackets accept exactly the separated items of the grammar, whatever the items are,
as long as the reader of an item recognizes them (`Recognizes`). The bound of a loop is never reached
on a text shorter than it, because every item takes a character. -/

namespace LiteralBridge.Literal

open Text Grammar

variable {α : Type}

/-- On texts shorter than the bound, a reader accepts exactly the items of a grammar after any white
space. An item begins like a literal, so it is not empty. -/
structure Recognizes (bound : Nat) (read : Reader α) (Item : List Char → α → List Char → Prop) :
    Prop where
  iff {text next : List Char} {x : α} (h : text.length < bound) :
    read text = .ok (x, next) ↔ Item (skipBlank text) x next
  head {text next : List Char} {x : α} (h : Item text x next) :
    ∃ c rest, text = c :: rest ∧ beginsLiteral c = true
  shrinks {text next : List Char} {x : α} (h : Item text x next) : next.length < text.length

namespace Recognizes

variable {bound : Nat} {read : Reader α} {Item : List Char → α → List Char → Prop}

theorem stops (hr : Recognizes bound read Item) {text next : List Char} {x : α}
    (h : Item text x next) : Stops isBlank text := by
  obtain ⟨c, rest, rfl, hc⟩ := hr.head h
  exact stops_cons.mpr (isBlank_eq_false_of_beginsLiteral hc)

theorem head_ne (hr : Recognizes bound read Item) {text next : List Char} {x : α} {c : Char}
    (h : Item text x next) (hc : beginsLiteral c = false) : text.head? ≠ some c := by
  obtain ⟨d, rest, rfl, hd⟩ := hr.head h
  intro he
  obtain rfl := Option.some.inj he
  simp [hc] at hd

theorem of_read (hr : Recognizes bound read Item) {text next : List Char} {x : α}
    (hlt : text.length < bound) (h : read (skipBlank text) = .ok (x, next)) :
    Item (skipBlank text) x next := by
  have hl := (blanks_skipBlank text).length_le
  have hi := (hr.iff (by omega)).mp h
  rwa [skipBlank_skipBlank] at hi

/-- An item is read off a text that leads to it. -/
theorem read_eq (hr : Recognizes bound read Item) {text start next : List Char} {x : α}
    (hlt : text.length < bound) (hb : Blanks text start) (h : Item start x next) :
    skipBlank text = start ∧ read start = .ok (x, next) := by
  have hs := hr.stops h
  have hl := hb.length_le
  refine ⟨hb.skipBlank_eq hs, (hr.iff (by omega)).mpr ?_⟩
  rwa [skipBlank_eq_self hs]

end Recognizes

/-! ## Lists and tuples -/

section Items

variable {limit : Nat} {item : Reader Literal} {Item : List Char → Literal → List Char → Prop}

theorem separated_of_readItems (hr : Recognizes limit item Item) {opening closing : Char}
    {bound : Nat} {text next : List Char} {items : List Literal} {comma : Bool}
    (hlt : text.length < limit)
    (h : readItems item opening closing bound text = .ok ((items, comma), next)) :
    Separated Item text items comma (closing :: next) := by
  induction bound generalizing text items comma with
  | zero => simp [readItems] at h
  | succ bound ih =>
    have hb := blanks_skipBlank text
    simp only [readItems] at h
    by_cases hc : (skipBlank text).head? = some closing
    · simp only [if_pos hc, Except.ok.injEq, Prod.mk.injEq] at h
      obtain ⟨⟨rfl, rfl⟩, rfl⟩ := h
      obtain ⟨tail, ht⟩ := List.head?_eq_some_iff.mp hc
      rw [ht] at hb ⊢
      exact .nil hb
    rw [if_neg hc] at h
    obtain ⟨⟨x, after⟩, hx, h⟩ := bind_eq_ok.mp h
    have hi := hr.of_read hlt hx
    have hshrinks := hr.shrinks hi
    have hl := hb.length_le
    have ha := blanks_skipBlank after
    cases hs : skipBlank after with
    | nil => simp [hs] at h
    | cons c rest =>
      simp only [hs] at h
      rw [hs] at ha
      have hl' := ha.length_le
      simp only [List.length_cons] at hl'
      by_cases hcomma : c = ','
      · rw [if_pos hcomma] at h
        obtain ⟨⟨⟨xs, more⟩, next'⟩, hxs, h⟩ := bind_eq_ok.mp h
        simp only [Except.ok.injEq, Prod.mk.injEq] at h
        obtain ⟨⟨rfl, rfl⟩, rfl⟩ := h
        subst hcomma
        exact .more hb hi ha (ih (by omega) hxs)
      rw [if_neg hcomma] at h
      by_cases hclose : c = closing
      · simp only [if_pos hclose, Except.ok.injEq, Prod.mk.injEq] at h
        obtain ⟨⟨rfl, rfl⟩, rfl⟩ := h
        exact .last hb hi (hclose ▸ ha)
      · simp [hclose] at h

theorem readItems_of_separated (hr : Recognizes limit item Item) (opening : Char) {closing : Char}
    (hc : closing = ']' ∨ closing = ')') {bound : Nat} {text next : List Char}
    {items : List Literal} {comma : Bool} (hlt : text.length < limit) (hbound : text.length < bound)
    (h : Separated Item text items comma (closing :: next)) :
    readItems item opening closing bound text = .ok ((items, comma), next) := by
  have hclosing : isBlank closing = false ∧ beginsLiteral closing = false ∧ closing ≠ ',' := by
    rcases hc with rfl | rfl <;> decide
  obtain ⟨hblank, hbegins, hne⟩ := hclosing
  induction bound generalizing text items comma with
  | zero => omega
  | succ bound ih =>
    cases h with
    | nil hb =>
      have hs := (skipBlank_eq_cons hblank).mpr hb
      simp [readItems, hs]
    | @last _ start after _ x hb hx ha =>
      obtain ⟨hs, hread⟩ := hr.read_eq hlt hb hx
      have hskip := (skipBlank_eq_cons hblank).mpr ha
      simp only [readItems, hs, if_neg (hr.head_ne hx hbegins), hread, ok_bind, hskip, if_neg hne,
        if_true]
    | @more _ start after rest _ x xs comma hb hx ha h =>
      obtain ⟨hs, hread⟩ := hr.read_eq hlt hb hx
      have hskip := (skipBlank_eq_cons (by decide)).mpr ha
      have hshrinks := hr.shrinks hx
      have hl := hb.length_le
      have hl' := ha.length_le
      simp only [List.length_cons] at hl'
      have hrest := ih (by omega) (by omega) h
      simp only [readItems, hs, if_neg (hr.head_ne hx hbegins), hread, ok_bind, hskip, if_true,
        hrest]

end Items

/-! ## Sets and tables

Between braces the separator is read before the next item. `readContinued` is that loop for members
and entries alike. -/

def readEntry (item : Reader Literal) : Reader (Literal × Literal) := fun text => do
  let (key, afterKey) ← item text
  let ((), afterColon) ← expect ':' (skipBlank afterKey)
  let (value, after) ← item afterColon
  .ok ((key, value), after)

/-- Reads the further items between braces and the closing brace. -/
def readContinued (read : Reader α) : (bound : Nat) → Reader (List α)
  | 0, text => .error ⟨.endOfText, text⟩
  | bound + 1, text => do
    let (more, afterSeparator) ← readBraceSeparator text
    if more then
      let (x, afterItem) ← read afterSeparator
      let (xs, after) ← readContinued read bound afterItem
      .ok (x :: xs, after)
    else .ok ([], afterSeparator)

theorem readMembers_eq (item : Reader Literal) (bound : Nat) :
    readMembers item bound = readContinued item bound := by
  induction bound with
  | zero => rfl
  | succ bound ih =>
    funext text
    simp only [readMembers, readContinued, ih]

theorem readEntries_eq (item : Reader Literal) (bound : Nat) :
    readEntries item bound = readContinued (readEntry item) bound := by
  induction bound with
  | zero => rfl
  | succ bound ih =>
    funext text
    simp only [readEntries, readContinued, readEntry, ih, bind_assoc, ok_bind]

/-- What stands after an item between brackets: further items, or the end of the brackets. -/
def Continued (Item : List Char → α → List Char → Prop) (text : List Char) (xs : List α)
    (next : List Char) : Prop :=
  xs = [] ∧ Blanks text next ∨
    ∃ rest comma, Blanks text (',' :: rest) ∧ Separated Item rest xs comma next

theorem separated_cons_iff {Item : List Char → α → List Char → Prop} {text next : List Char} {x : α}
    {xs : List α} :
    (∃ comma, Separated Item text (x :: xs) comma next) ↔
      ∃ start after, Blanks text start ∧ Item start x after ∧ Continued Item after xs next := by
  constructor
  · rintro ⟨comma, h⟩
    cases h with
    | last hb hx ha => exact ⟨_, _, hb, hx, .inl ⟨rfl, ha⟩⟩
    | more hb hx ha h => exact ⟨_, _, hb, hx, .inr ⟨_, _, ha, h⟩⟩
  · rintro ⟨start, after, hb, hx, ⟨rfl, ha⟩ | ⟨rest, comma, ha, h⟩⟩
    · exact ⟨false, .last hb hx ha⟩
    · exact ⟨true, .more hb hx ha h⟩

/-- After an item there is the closing brace, perhaps after a comma, or a comma and a further item. -/
theorem readBraceSeparator_eq_ok {text after : List Char} {more : Bool} :
    readBraceSeparator text = .ok (more, after) ↔
      more = false ∧ (Blanks text ('}' :: after) ∨
        ∃ rest, Blanks text (',' :: rest) ∧ Blanks rest ('}' :: after)) ∨
      more = true ∧ ∃ rest, Blanks text (',' :: rest) ∧ after = skipBlank rest ∧
        after.head? ≠ some '}' := by
  constructor
  · intro h
    have hb := blanks_skipBlank text
    cases hs : skipBlank text with
    | nil => simp [readBraceSeparator, hs] at h
    | cons c rest =>
      rw [hs] at hb
      simp only [readBraceSeparator, hs] at h
      by_cases hclose : c = '}'
      · simp only [if_pos hclose, Except.ok.injEq, Prod.mk.injEq] at h
        obtain ⟨rfl, rfl⟩ := h
        exact .inl ⟨rfl, .inl (hclose ▸ hb)⟩
      rw [if_neg hclose] at h
      by_cases hcomma : c = ','
      · subst hcomma
        rw [if_pos rfl] at h
        by_cases he : (skipBlank rest).head? = some '}'
        · simp only [if_pos he, Except.ok.injEq, Prod.mk.injEq] at h
          obtain ⟨rfl, rfl⟩ := h
          obtain ⟨tail, ht⟩ := List.head?_eq_some_iff.mp he
          refine .inl ⟨rfl, .inr ⟨rest, hb, ?_⟩⟩
          rw [ht]
          exact ht ▸ blanks_skipBlank rest
        · simp only [if_neg he, Except.ok.injEq, Prod.mk.injEq] at h
          obtain ⟨rfl, rfl⟩ := h
          exact .inr ⟨rfl, rest, hb, rfl, he⟩
      · simp [hcomma] at h
  · rintro (⟨rfl, hb | ⟨rest, hb, ha⟩⟩ | ⟨rfl, rest, hb, rfl, hne⟩)
    · have hs := (skipBlank_eq_cons (by decide)).mpr hb
      simp [readBraceSeparator, hs]
    · have hs := (skipBlank_eq_cons (by decide)).mpr hb
      have hs' := (skipBlank_eq_cons (by decide)).mpr ha
      simp [readBraceSeparator, hs, hs']
    · have hs := (skipBlank_eq_cons (by decide)).mpr hb
      simp [readBraceSeparator, hs, hne]

theorem readBraceSeparator_skipBlank (text : List Char) :
    readBraceSeparator (skipBlank text) = readBraceSeparator text := by
  rw [readBraceSeparator, readBraceSeparator, skipBlank_skipBlank]

theorem readContinued_skipBlank (read : Reader α) (bound : Nat) {text : List Char} {xs : List α}
    {next : List Char} :
    readContinued read bound (skipBlank text) = .ok (xs, next) ↔
      readContinued read bound text = .ok (xs, next) := by
  cases bound with
  | zero => simp [readContinued]
  | succ bound => rw [readContinued, readContinued, readBraceSeparator_skipBlank]

section Continued

variable {limit : Nat} {read : Reader α} {Item : List Char → α → List Char → Prop}

theorem continued_of_readContinued (hr : Recognizes limit read Item) {bound : Nat}
    {text next : List Char} {xs : List α} (hlt : text.length < limit)
    (h : readContinued read bound text = .ok (xs, next)) :
    Continued Item text xs ('}' :: next) := by
  induction bound generalizing text xs with
  | zero => simp [readContinued] at h
  | succ bound ih =>
    obtain ⟨⟨more, after⟩, hs, h⟩ := bind_eq_ok.mp h
    rcases readBraceSeparator_eq_ok.mp hs with ⟨rfl, hend⟩ | ⟨rfl, rest, hb, rfl, -⟩
    · obtain ⟨rfl, rfl⟩ := Prod.mk.inj (Except.ok.inj h)
      rcases hend with hb | ⟨rest, hb, ha⟩
      · exact .inl ⟨rfl, hb⟩
      · exact .inr ⟨rest, false, hb, .nil ha⟩
    · obtain ⟨⟨x, afterItem⟩, hx, h⟩ := bind_eq_ok.mp h
      obtain ⟨⟨ys, next'⟩, hys, h⟩ := bind_eq_ok.mp h
      obtain ⟨rfl, rfl⟩ := Prod.mk.inj (Except.ok.inj h)
      have hl := hb.length_le
      simp only [List.length_cons] at hl
      have hi := hr.of_read (by omega) hx
      have hshrinks := hr.shrinks hi
      have hl' := (blanks_skipBlank rest).length_le
      obtain ⟨comma, hsep⟩ := separated_cons_iff.mpr
        ⟨_, _, blanks_skipBlank rest, hi, ih (by omega) hys⟩
      exact .inr ⟨rest, comma, hb, hsep⟩

theorem readContinued_of_continued (hr : Recognizes limit read Item) (bound : Nat)
    {text next : List Char} {xs : List α} (hlt : text.length < limit)
    (hbound : text.length < bound) (h : Continued Item text xs ('}' :: next)) :
    readContinued read bound text = .ok (xs, next) := by
  induction bound generalizing text xs with
  | zero => omega
  | succ bound ih =>
    have close (hend : Blanks text ('}' :: next) ∨
        ∃ rest, Blanks text (',' :: rest) ∧ Blanks rest ('}' :: next)) :
        readContinued read (bound + 1) text = .ok ([], next) := by
      rw [readContinued, readBraceSeparator_eq_ok.mpr (.inl ⟨rfl, hend⟩)]
      rfl
    rcases h with ⟨rfl, hb⟩ | ⟨rest, comma, hb, hsep⟩
    · exact close (.inl hb)
    cases xs with
    | nil =>
      cases hsep with
      | nil ha => exact close (.inr ⟨rest, hb, ha⟩)
    | cons x xs =>
      obtain ⟨start, after, hstart, hx, hc⟩ := separated_cons_iff.mp ⟨comma, hsep⟩
      have hl := hb.length_le
      have hl' := hstart.length_le
      simp only [List.length_cons] at hl
      have hshrinks := hr.shrinks hx
      obtain ⟨hs, hread⟩ := hr.read_eq (by omega) hstart hx
      have hmore := readBraceSeparator_eq_ok.mpr
        (.inr ⟨rfl, rest, hb, hs.symm, hr.head_ne hx (by decide)⟩)
      simp only [readContinued, hmore, ok_bind, if_true, hread, ih (by omega) (by omega) hc]

end Continued

section Braces

variable {limit : Nat} {item : Reader Literal} {Item : List Char → Literal → List Char → Prop}

/-- A key, a colon and a value are read as an entry. -/
theorem readEntry_eq_ok (hr : Recognizes limit item Item) {text next : List Char}
    {entry : Literal × Literal} (hlt : text.length < limit) :
    readEntry item text = .ok (entry, next) ↔ Entry Item (skipBlank text) entry next := by
  have hl := (blanks_skipBlank text).length_le
  constructor
  · intro h
    obtain ⟨⟨key, afterKey⟩, hk, h⟩ := bind_eq_ok.mp h
    obtain ⟨⟨u, afterColon⟩, hc, h⟩ := bind_eq_ok.mp h
    obtain ⟨⟨value, after⟩, hv, h⟩ := bind_eq_ok.mp h
    obtain ⟨rfl, rfl⟩ := Prod.mk.inj (Except.ok.inj h)
    have hki := (hr.iff hlt).mp hk
    have hcolon := (skipBlank_eq_cons (by decide)).mp (expect_eq_ok.mp hc)
    have hshrinks := hr.shrinks hki
    have hl' := hcolon.length_le
    simp only [List.length_cons] at hl'
    exact ⟨afterKey, afterColon, skipBlank afterColon, hki, hcolon, blanks_skipBlank afterColon,
      (hr.iff (by omega)).mp hv⟩
  · rintro ⟨after, rest, start, hk, hcolon, hb, hv⟩
    have hshrinks := hr.shrinks hk
    have hl' := hcolon.length_le
    simp only [List.length_cons] at hl'
    have hs := (skipBlank_eq_cons (by decide)).mpr hcolon
    have hv' : item rest = .ok (entry.2, next) := by
      rw [hr.iff (by omega), hb.skipBlank_eq (hr.stops hv)]
      exact hv
    simp only [readEntry, (hr.iff hlt).mpr hk, ok_bind, hs, expect_cons, hv']

theorem Grammar.Entry.length_lt
    (hi : ∀ {text literal next}, Item text literal next → next.length < text.length)
    {text next : List Char} {entry : Literal × Literal} (h : Entry Item text entry next) :
    next.length < text.length := by
  obtain ⟨after, rest, start, hk, ha, hb, hv⟩ := h
  have hlk := hi hk
  have hlv := hi hv
  have hla := ha.length_le
  have hlb := hb.length_le
  simp only [List.length_cons] at hla
  omega

theorem Recognizes.entry (hr : Recognizes limit item Item) :
    Recognizes limit (readEntry item) (Entry Item) where
  iff hlt := readEntry_eq_ok hr hlt
  head h := by
    obtain ⟨after, rest, start, hk, -⟩ := h
    exact hr.head hk
  shrinks h := h.length_lt hr.shrinks

theorem bracketed_of_readBraces (hr : Recognizes limit item Item) {bound : Nat}
    {text next : List Char} {literal : Literal} (hlt : text.length < limit)
    (h : readBraces item bound text = .ok (literal, next)) :
    Bracketed Item ('{' :: text) literal next := by
  have hb := blanks_skipBlank text
  have hl := hb.length_le
  simp only [readBraces, readMembers_eq, readEntries_eq] at h
  by_cases he : (skipBlank text).head? = some '}'
  · simp only [if_pos he, Except.ok.injEq, Prod.mk.injEq] at h
    obtain ⟨rfl, rfl⟩ := h
    obtain ⟨tail, ht⟩ := List.head?_eq_some_iff.mp he
    rw [ht] at hb ⊢
    exact .dict (.nil hb)
  rw [if_neg he] at h
  obtain ⟨⟨first, after⟩, hf, h⟩ := bind_eq_ok.mp h
  have hi := hr.of_read hlt hf
  have hshrinks := hr.shrinks hi
  have ha := blanks_skipBlank after
  have hl' := ha.length_le
  by_cases hc : (skipBlank after).head? = some ':'
  · obtain ⟨tail, ht⟩ := List.head?_eq_some_iff.mp hc
    rw [if_pos hc] at h
    simp only [ht, List.tail_cons] at h
    rw [ht] at ha hl'
    simp only [List.length_cons] at hl'
    obtain ⟨⟨value, afterValue⟩, hv, h⟩ := bind_eq_ok.mp h
    obtain ⟨⟨entries, next'⟩, hes, h⟩ := bind_eq_ok.mp h
    obtain ⟨rfl, rfl⟩ := Prod.mk.inj (Except.ok.inj h)
    have hvi := (hr.iff (by omega)).mp hv
    have hentry : Entry Item (skipBlank text) (first, value) afterValue :=
      ⟨after, tail, skipBlank tail, hi, ha, blanks_skipBlank tail, hvi⟩
    have hshrinks' := hr.entry.shrinks hentry
    have hlt' : afterValue.length < limit := by omega
    have hcont := continued_of_readContinued hr.entry hlt' hes
    obtain ⟨comma, hsep⟩ := separated_cons_iff.mpr ⟨_, _, hb, hentry, hcont⟩
    exact .dict hsep
  · rw [if_neg hc] at h
    obtain ⟨⟨members, next'⟩, hms, h⟩ := bind_eq_ok.mp h
    obtain ⟨rfl, rfl⟩ := Prod.mk.inj (Except.ok.inj h)
    rw [readContinued_skipBlank] at hms
    have hlt' : after.length < limit := by omega
    have hcont := continued_of_readContinued hr hlt' hms
    obtain ⟨comma, hsep⟩ := separated_cons_iff.mpr ⟨_, _, hb, hi, hcont⟩
    exact .set hsep (by simp)

/-- What follows the first member of a set is no colon. -/
theorem Continued.head_ne {α : Type} {Item : List Char → α → List Char → Prop}
    {text next : List Char} {xs : List α} (h : Continued Item text xs ('}' :: next)) :
    (skipBlank text).head? ≠ some ':' := by
  rcases h with ⟨-, hb⟩ | ⟨rest, comma, hb, -⟩
  · rw [(skipBlank_eq_cons (by decide)).mpr hb]
    simp
  · rw [(skipBlank_eq_cons (by decide)).mpr hb]
    simp

theorem readBraces_of_set (hr : Recognizes limit item Item) {bound : Nat} {text next : List Char}
    {items : List Literal} {comma : Bool} (hlt : text.length < limit)
    (hbound : text.length < bound) (h : Separated Item text items comma ('}' :: next))
    (hne : items ≠ []) : readBraces item bound text = .ok (.set items, next) := by
  cases items with
  | nil => exact absurd rfl hne
  | cons x xs =>
    obtain ⟨start, after, hb, hx, hc⟩ := separated_cons_iff.mp ⟨comma, h⟩
    obtain ⟨hs, hread⟩ := hr.read_eq hlt hb hx
    have hl := hb.length_le
    have hshrinks := hr.shrinks hx
    have hrest := (readContinued_skipBlank item bound).mpr
      (readContinued_of_continued hr bound (by omega) (by omega) hc)
    have hopen : start.head? ≠ some '}' := hr.head_ne hx (by decide)
    simp only [readBraces, hs, if_neg hopen, hread, ok_bind, if_neg hc.head_ne, readMembers_eq, hrest]

theorem readBraces_of_dict (hr : Recognizes limit item Item) {bound : Nat} {text next : List Char}
    {entries : List (Literal × Literal)} {comma : Bool} (hlt : text.length < limit)
    (hbound : text.length < bound) (h : Separated (Entry Item) text entries comma ('}' :: next)) :
    readBraces item bound text = .ok (.dict entries, next) := by
  cases entries with
  | nil =>
    cases h with
    | nil hb =>
      have hs := (skipBlank_eq_cons (by decide)).mpr hb
      simp [readBraces, hs]
  | cons entry entries =>
    obtain ⟨start, afterValue, hb, hentry, hc⟩ := separated_cons_iff.mp ⟨comma, h⟩
    have hshrinks := hr.entry.shrinks hentry
    obtain ⟨after, rest, value, hk, hcolon, hv, hvi⟩ := hentry
    obtain ⟨hs, hread⟩ := hr.read_eq hlt hb hk
    have hs' := (skipBlank_eq_cons (by decide)).mpr hcolon
    have hl := hb.length_le
    have hl' := hcolon.length_le
    have hkshrinks := hr.shrinks hk
    simp only [List.length_cons] at hl'
    have hvalue : item rest = .ok (entry.2, afterValue) := by
      rw [hr.iff (by omega), hv.skipBlank_eq (hr.stops hvi)]
      exact hvi
    have hrest := readContinued_of_continued hr.entry bound (by omega) (by omega) hc
    have hopen : start.head? ≠ some '}' := hr.head_ne hk (by decide)
    simp only [readBraces, hs, if_neg hopen, hread, ok_bind, hs',
      List.head?_cons, if_true, List.tail_cons, hvalue, readEntries_eq, hrest]

end Braces

end LiteralBridge.Literal
