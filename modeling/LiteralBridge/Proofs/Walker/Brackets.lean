import LiteralBridge.Proofs.Walker.Scalars

/-! # Walking over brackets

Whatever an item is, the loops between brackets end as those of the readers do. Every turn but the last
one takes the comma before the next item, and the bracket that a walk opens it closes again on every way
out with a result. -/

namespace LiteralBridge.Literal

open Text Grammar

namespace Walker

variable {α : Type} (text : String) (limit : Nat) (item : Walker Literal)

def itemTurn (opening closing : Char) :
    List Literal × Bool → Walker (ForInStep (List Literal × Bool))
  | (literals, comma) => do
    skipWhile text isBlank
    let next ← peek text
    if next = some closing then
      let _ ← bump text
      return .done (literals, comma)
    else
      let literal ← item
      skipWhile text isBlank
      match ← peek text with
      | Option.none => fail (.unclosed opening)
      | some c =>
        if c = ',' then
          let _ ← bump text
          return .yield (literals ++ [literal], true)
        else if c = closing then
          let _ ← bump text
          return .done (literals ++ [literal], comma)
        else fail (.unseparated closing c)

/-- Takes a list or a tuple with its brackets, and tells whether there was a comma. -/
def items (opening closing : Char) : Walker (List Literal × Bool) := do
  expect text opening
  enter limit
  let read ← loop (itemTurn text item opening closing) (text.length + 1) ([], false)
  leave
  return read

/-- Takes what follows an item between braces, and tells whether another item does. -/
def braceSeparator : Walker Bool := do
  skipWhile text isBlank
  match ← peek text with
  | Option.none => fail (.unclosed '{')
  | some c =>
    if c = '}' then
      let _ ← bump text
      return false
    else if c = ',' then
      let _ ← bump text
      skipWhile text isBlank
      let next ← peek text
      if next = some '}' then
        let _ ← bump text
        return false
      else return true
    else fail (.unseparated '}' c)

def continuedTurn (element : Walker α) (xs : List α) : Walker (ForInStep (List α)) := do
  let more ← braceSeparator text
  if more then
    let x ← element
    return .yield (xs ++ [x])
  else return .done xs

/-- Takes the further elements between braces. -/
def continued (element : Walker α) (xs : List α) : Walker (List α) :=
  loop (continuedTurn text element) (text.length + 1) xs

def entry : Walker (Literal × Literal) := do
  let key ← item
  skipWhile text isBlank
  expect text ':'
  let value ← item
  return (key, value)

/-- Takes what follows the first item between braces, which decides what they enclose. -/
def bracesFrom (first : Literal) : Walker Literal := do
  let next ← peek text
  if next = some ':' then
    let _ ← bump text
    let value ← item
    let entries ← continued text (entry text item) [(first, value)]
    return .dict entries
  else
    let members ← continued text item [first]
    return .set members

def braces : Walker Literal := do
  expect text '{'
  enter limit
  skipWhile text isBlank
  let next ← peek text
  if next = some '}' then
    let _ ← bump text
    leave
    return .dict []
  else
    let first ← item
    skipWhile text isBlank
    let literal ← bracesFrom text item first
    leave
    return literal

end Walker

section Brackets

variable {text : String} {limit depth : Nat} {rest : List Char} {t : Trail} {α : Type}

/-- What is left after a reader is no longer than what it began with. -/
def Shortens (read : Reader α) : Prop :=
  ∀ {text x next}, read text = .ok (x, next) → next.length ≤ text.length

theorem Ends.shortens {room : Nat} {read : Reader α} (h : ∀ text, Ends room text (read text)) :
    Shortens read := by
  intro text x next hr
  have he := h text
  rw [hr] at he
  exact List.IsSuffix.length_le he

/-! ## Lists and tuples -/

section Items

variable {item : Walker Literal} {read : Reader Literal} {opening closing : Char}

def readItemTurn (read : Reader Literal) (opening closing : Char) :
    List Literal × Bool → Reader (ForInStep (List Literal × Bool))
  | (literals, comma), text =>
    if (skipBlank text).head? = some closing then .ok (.done (literals, comma), (skipBlank text).tail)
    else do
      let (literal, afterItem) ← read (skipBlank text)
      match skipBlank afterItem with
      | [] => .error ⟨.unclosed opening, []⟩
      | c :: rest =>
        if c = ',' then .ok (.yield (literals ++ [literal], true), rest)
        else if c = closing then .ok (.done (literals ++ [literal], comma), rest)
        else .error ⟨.unseparated closing c, c :: rest⟩

theorem retraces_itemTurn (hr : Retraces text limit depth item read) (x : List Literal × Bool) :
    Retraces text limit depth (Walker.itemTurn text item opening closing x)
      (readItemTurn read opening closing x) := by
  intro rest t h
  refine h.skipBlanks.then fun h => h.peek.then fun h => ?_
  rw [readItemTurn]
  by_cases hc : (skipBlank rest).head? = some closing
  · rw [if_pos hc, if_pos hc]
    obtain ⟨tail, ht⟩ := List.head?_eq_some_iff.mp hc
    rw [ht] at h ⊢
    exact h.bump.then fun h => h.pure _
  rw [if_neg hc, if_neg hc]
  refine (hr h).bind fun {literal next _} _ h => h.skipBlanks.then fun h => h.peek.then fun h => ?_
  dsimp only
  cases hs : skipBlank next with
  | nil =>
    rw [hs] at h
    exact h.fail _
  | cons c tail =>
    rw [hs] at h
    rw [List.head?_cons]
    dsimp only
    split
    · exact h.bump.then fun h => h.pure _
    split
    · exact h.bump.then fun h => h.pure _
    · exact h.fail _

theorem advances_readItemTurn (hs : Shortens read) :
    Advances (readItemTurn read opening closing) := by
  intro x y text next hr
  rw [readItemTurn] at hr
  split at hr
  · cases hr
  obtain ⟨⟨literal, after⟩, hi, hr⟩ := bind_eq_ok.mp hr
  have hitem := hs hi
  have hstart := (skipBlank_suffix text).length_le
  have hmark := (skipBlank_suffix after).length_le
  dsimp only at hr
  split at hr
  · cases hr
  · next c rest hm =>
    rw [hm, List.length_cons] at hmark
    split at hr
    · obtain ⟨-, rfl⟩ := Prod.mk.inj (Except.ok.inj hr)
      omega
    split at hr <;> cases hr

/-- What the turns have read so far stands before what is still read. -/
def prependItems : List Literal × Bool → (List Literal × Bool) × List Char →
    (List Literal × Bool) × List Char
  | (literals, comma), ((more, comma'), rest) => ((literals ++ more, comma || comma'), rest)

theorem unrolls_readItemTurn :
    Unrolls (readItemTurn read opening closing) fun bound x text =>
      (readItems read opening closing bound text).map (prependItems x) := by
  rintro bound ⟨literals, comma⟩ text
  simp only [readItems, readItemTurn]
  split
  · simp [Except.map, ok_bind, prependItems]
  cases read (skipBlank text) with
  | error stop => rfl
  | ok found =>
    simp only [ok_bind]
    cases skipBlank found.2 with
    | nil => rfl
    | cons c rest =>
      dsimp only
      split
      · rw [ok_bind]
        dsimp only
        cases readItems read opening closing bound rest with
        | error stop => rfl
        | ok more => simp [Except.map, ok_bind, prependItems]
      split
      · simp [Except.map, ok_bind, prependItems]
      · rfl

theorem accords_items (hr : Retraces text limit (depth + 1) item read) (hs : Shortens read)
    (hd : depth < limit) (h : Stands text limit depth (opening :: rest) t) :
    Accords text limit depth ((Walker.items text limit item opening closing).run t)
      (readItems read opening closing (text.length + 1) rest) := by
  have hread : readItems read opening closing (text.length + 1) rest =
      (readItems read opening closing (text.length + 1) rest).map (prependItems ([], false)) := by
    cases readItems read opening closing (text.length + 1) rest with
    | error stop => rfl
    | ok found => simp [Except.map, prependItems]
  rw [hread, ← bind_pure (Except.map ..)]
  refine h.expect.then fun h => (h.enter hd).then fun h => ?_
  exact (accords_loop (retraces_itemTurn hr) (advances_readItemTurn hs) unrolls_readItemTurn h
    h.length_lt).bind fun _ h => h.leave.then fun h => h.pure _

theorem accords_items_of_le (hd : limit ≤ depth)
    (h : Stands text limit depth (opening :: rest) t) :
    Accords text limit depth ((Walker.items text limit item opening closing).run t)
      (.error ⟨.tooDeep limit, rest⟩) :=
  h.expect.then fun h => (h.enter_of_le hd).halt

end Items

/-! ## Sets and tables -/

section Braces

theorem retraces_braceSeparator :
    Retraces text limit depth (Walker.braceSeparator text) readBraceSeparator := by
  intro rest t h
  refine h.skipBlanks.then fun h => h.peek.then fun h => ?_
  rw [readBraceSeparator]
  cases hs : skipBlank rest with
  | nil =>
    rw [hs] at h
    exact h.fail _
  | cons c tail =>
    rw [hs] at h
    rw [List.head?_cons]
    dsimp only
    split
    · exact h.bump.then fun h => h.pure _
    split
    · refine h.bump.then fun h => h.skipBlanks.then fun h => h.peek.then fun h => ?_
      by_cases hc : (skipBlank tail).head? = some '}'
      · rw [if_pos hc, if_pos hc]
        obtain ⟨more, hm⟩ := List.head?_eq_some_iff.mp hc
        rw [hm] at h ⊢
        exact h.bump.then fun h => h.pure _
      · rw [if_neg hc, if_neg hc]
        exact h.pure _
    · exact h.fail _

variable {element : Walker α} {readElement : Reader α}

def readContinuedTurn (read : Reader α) (xs : List α) : Reader (ForInStep (List α)) := fun text => do
  let (more, afterSeparator) ← readBraceSeparator text
  if more then
    let (x, afterElement) ← read afterSeparator
    .ok (.yield (xs ++ [x]), afterElement)
  else .ok (.done xs, afterSeparator)

theorem retraces_continuedTurn (hr : Retraces text limit depth element readElement)
    (xs : List α) :
    Retraces text limit depth (Walker.continuedTurn text element xs)
      (readContinuedTurn readElement xs) := by
  intro rest t h
  refine (retraces_braceSeparator h).bind fun {more _ _} _ h => ?_
  cases more with
  | true => exact (hr h).bind fun _ h => h.pure _
  | false => exact h.pure _

theorem advances_readContinuedTurn (hs : Shortens readElement) :
    Advances (readContinuedTurn readElement) := by
  intro xs y text next hr
  obtain ⟨⟨more, after⟩, hb, hr⟩ := bind_eq_ok.mp hr
  cases more with
  | false => cases hr
  | true =>
    obtain ⟨⟨x, rest⟩, hx, hr⟩ := bind_eq_ok.mp hr
    obtain ⟨-, rfl⟩ := Prod.mk.inj (Except.ok.inj hr)
    have hl := hs hx
    rcases readBraceSeparator_eq_ok.mp hb with ⟨hm, -⟩ | ⟨-, tail, hc, rfl, -⟩
    · cases hm
    · have hcomma := hc.length_le
      have hskip := (skipBlank_suffix tail).length_le
      rw [List.length_cons] at hcomma
      omega

theorem unrolls_readContinuedTurn :
    Unrolls (readContinuedTurn readElement) fun bound xs text =>
      (readContinued readElement bound text).map (prepend xs) := by
  intro bound xs text
  simp only [readContinued, readContinuedTurn]
  cases readBraceSeparator text with
  | error stop => rfl
  | ok found =>
    obtain ⟨more, after⟩ := found
    cases more with
    | false => simp [Except.map, ok_bind, prepend]
    | true =>
      simp only [ok_bind, if_true]
      cases readElement after with
      | error stop => rfl
      | ok read => exact map_prepend_bind _ xs [read.1]

theorem accords_continued (hr : Retraces text limit depth element readElement)
    (hs : Shortens readElement) (xs : List α) (h : Stands text limit depth rest t) :
    Accords text limit depth ((Walker.continued text element xs).run t)
      ((readContinued readElement (text.length + 1) rest).map (prepend xs)) :=
  accords_loop (retraces_continuedTurn hr) (advances_readContinuedTurn hs)
    unrolls_readContinuedTurn h h.length_lt

variable {item : Walker Literal} {read : Reader Literal}

theorem retraces_entry (hr : Retraces text limit depth item read) :
    Retraces text limit depth (Walker.entry text item) (readEntry read) := by
  intro rest t h
  refine (hr h).bind fun _ h => h.skipBlanks.then fun h => ?_
  exact (retraces_expect ':' h).bind fun _ h => (hr h).bind fun _ h => h.pure _

/-- What `readBraces` does after the first item. -/
def readBracesFrom (read : Reader Literal) (bound : Nat) (first : Literal) : Reader Literal :=
  fun separator =>
    if separator.head? = some ':' then do
      let (value, afterValue) ← read separator.tail
      let (entries, after) ←
        (readContinued (readEntry read) bound afterValue).map (prepend [(first, value)])
      .ok (.dict entries, after)
    else do
      let (members, after) ← (readContinued read bound separator).map (prepend [first])
      .ok (.set members, after)

theorem readBraces_eq (read : Reader Literal) (bound : Nat) (text : List Char) :
    readBraces read bound text =
      if (skipBlank text).head? = some '}' then .ok (.dict [], (skipBlank text).tail)
      else read (skipBlank text) >>= fun (first, after) =>
        readBracesFrom read bound first (skipBlank after) := by
  simp only [readBraces, readMembers_eq, readEntries_eq, readBracesFrom]
  split
  · rfl
  cases read (skipBlank text) with
  | error stop => rfl
  | ok found =>
    simp only [ok_bind]
    split
    · cases read (skipBlank found.2).tail with
      | error stop => rfl
      | ok next =>
        simp only [ok_bind]
        cases readContinued (readEntry read) bound next.2 <;> rfl
    · cases readContinued read bound (skipBlank found.2) <;> rfl

theorem retraces_bracesFrom {room : Nat} (hr : Retraces text limit depth item read)
    (he : ∀ text, Ends room text (read text)) (first : Literal) :
    Retraces text limit depth (Walker.bracesFrom text item first)
      (readBracesFrom read (text.length + 1) first) := by
  intro rest t h
  refine h.peek.then fun h => ?_
  rw [readBracesFrom]
  by_cases hc : rest.head? = some ':'
  · rw [if_pos hc, if_pos hc]
    obtain ⟨tail, rfl⟩ := List.head?_eq_some_iff.mp hc
    refine h.bump.then fun h => (hr h).bind fun _ h => ?_
    exact (accords_continued (retraces_entry hr) (Ends.shortens (ends_readEntry he)) _ h).bind
      fun _ h => h.pure _
  · rw [if_neg hc, if_neg hc]
    exact (accords_continued hr (Ends.shortens he) _ h).bind fun _ h => h.pure _

theorem accords_braces {room : Nat} (hr : Retraces text limit (depth + 1) item read)
    (he : ∀ text, Ends room text (read text)) (hd : depth < limit)
    (h : Stands text limit depth ('{' :: rest) t) :
    Accords text limit depth ((Walker.braces text limit item).run t)
      (readBraces read (text.length + 1) rest) := by
  refine h.expect.then fun h => (h.enter hd).then fun h => h.skipBlanks.then fun h =>
    h.peek.then fun h => ?_
  rw [readBraces_eq]
  by_cases hc : (skipBlank rest).head? = some '}'
  · rw [if_pos hc, if_pos hc]
    obtain ⟨tail, ht⟩ := List.head?_eq_some_iff.mp hc
    rw [ht] at h ⊢
    exact h.bump.then fun h => h.leave.then fun h => h.pure _
  · rw [if_neg hc, if_neg hc]
    refine (hr h).bind fun {first _ _} _ h => h.skipBlanks.then fun h => ?_
    dsimp only
    rw [← bind_pure (readBracesFrom ..)]
    exact (retraces_bracesFrom hr he first h).bind fun _ h => h.leave.then fun h => h.pure _

theorem accords_braces_of_le (hd : limit ≤ depth) (h : Stands text limit depth ('{' :: rest) t) :
    Accords text limit depth ((Walker.braces text limit item).run t)
      (.error ⟨.tooDeep limit, rest⟩) :=
  h.expect.then fun h => (h.enter_of_le hd).halt

end Braces

end Brackets

end LiteralBridge.Literal
