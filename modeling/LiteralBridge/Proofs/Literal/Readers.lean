import LiteralBridge.Proofs.Literal.Grammar

/-! # Steps of readers

What one step of a reader takes off the text: white space, one expected character, or a token of a
class of characters up to where the class stops. -/

namespace LiteralBridge.Literal

open Text Grammar

theorem bind_eq_ok {ε α β : Type} {x : Except ε α} {f : α → Except ε β} {b : β} :
    (x >>= f) = .ok b ↔ ∃ a, x = .ok a ∧ f a = .ok b := by
  cases x with
  | error e => simp [bind, Except.bind]
  | ok a => simp [bind, Except.bind]

theorem bind_eq_error {ε α β : Type} {x : Except ε α} {f : α → Except ε β} {e : ε} :
    (x >>= f) = .error e ↔ x = .error e ∨ ∃ a, x = .ok a ∧ f a = .error e := by
  cases x with
  | error found => simp [bind, Except.bind]
  | ok a => simp [bind, Except.bind]

theorem ok_bind {ε α β : Type} (a : α) (f : α → Except ε β) : ((.ok a : Except ε α) >>= f) = f a :=
  rfl

/-- A list that is mapped without an error, in pairs with what it is mapped to. -/
theorem exists_pairs_of_mapM {ε α β : Type} {f : α → Except ε β} {as : List α} {bs : List β}
    (h : as.mapM f = .ok bs) :
    ∃ pairs : List (α × β), as = pairs.map Prod.fst ∧ bs = pairs.map Prod.snd ∧
      ∀ pair ∈ pairs, f pair.1 = .ok pair.2 := by
  induction as generalizing bs with
  | nil => exact ⟨[], rfl, (Except.ok.inj h).symm, by simp⟩
  | cons a rest ih =>
    rw [List.mapM_cons] at h
    obtain ⟨b, hb, h⟩ := bind_eq_ok.mp h
    obtain ⟨others, hothers, h⟩ := bind_eq_ok.mp h
    obtain ⟨pairs, rfl, rfl, hpairs⟩ := ih hothers
    exact ⟨(a, b) :: pairs, rfl, (Except.ok.inj h).symm, List.forall_mem_cons.mpr ⟨hb, hpairs⟩⟩

/-! ## Where a class of characters stops -/

@[simp] theorem stops_nil (p : Char → Bool) : Stops p [] := by
  simp [Stops]

@[simp] theorem stops_cons {p : Char → Bool} {c : Char} {next : List Char} :
    Stops p (c :: next) ↔ p c = false := by
  simp [Stops]

theorem stops_iff_any {p : Char → Bool} {next : List Char} :
    Stops p next ↔ ¬ next.head?.any p = true := by
  cases next <;> simp

/-- A smaller class stops wherever a larger one does. -/
theorem Grammar.Stops.mono {p q : Char → Bool} {next : List Char} (h : Stops q next)
    (hpq : ∀ c, p c = true → q c = true) : Stops p next := by
  intro c hc
  cases hp : p c with
  | false => rfl
  | true =>
    have hq := h c hc
    rw [hpq c hp] at hq
    exact hq

theorem stops_dropWhile (p : Char → Bool) (text : List Char) : Stops p (text.dropWhile p) := by
  induction text with
  | nil => simp
  | cons c rest ih =>
    by_cases h : p c = true
    · simpa [List.dropWhile_cons, h] using ih
    · simp [h]

theorem takeWhile_append_of_stops {p : Char → Bool} {token next : List Char}
    (h : ∀ c ∈ token, p c = true) (hs : Stops p next) : (token ++ next).takeWhile p = token := by
  rw [List.takeWhile_append_of_pos h]
  cases next with
  | nil => simp
  | cons c rest => simp [stops_cons.mp hs]

theorem dropWhile_append_of_stops {p : Char → Bool} {token next : List Char}
    (h : ∀ c ∈ token, p c = true) (hs : Stops p next) : (token ++ next).dropWhile p = next := by
  rw [List.dropWhile_append_of_pos h]
  cases next with
  | nil => simp
  | cons c rest => simp [stops_cons.mp hs]

/-! ## White space -/

theorem Grammar.Blanks.refl (text : List Char) : Blanks text text :=
  ⟨[], by simp, rfl⟩

theorem Grammar.Blanks.space (text : List Char) : Blanks (' ' :: text) text :=
  ⟨[' '], List.all_eq_true.mp rfl, rfl⟩

theorem blanks_skipBlank (text : List Char) : Blanks text (skipBlank text) := by
  refine ⟨text.takeWhile isBlank, ?_, List.takeWhile_append_dropWhile.symm⟩
  intro c hc
  exact List.all_eq_true.mp List.all_takeWhile c hc

theorem stops_skipBlank (text : List Char) : Stops isBlank (skipBlank text) :=
  stops_dropWhile isBlank text

theorem Grammar.Blanks.skipBlank_eq {text next : List Char} (h : Blanks text next)
    (hs : Stops isBlank next) : skipBlank text = next := by
  obtain ⟨blanks, hb, rfl⟩ := h
  exact dropWhile_append_of_stops hb hs

theorem Grammar.Blanks.length_le {text next : List Char} (h : Blanks text next) :
    next.length ≤ text.length := by
  obtain ⟨blanks, -, rfl⟩ := h
  simp

theorem skipBlank_eq_self {text : List Char} (h : Stops isBlank text) : skipBlank text = text :=
  (Blanks.refl text).skipBlank_eq h

theorem skipBlank_skipBlank (text : List Char) : skipBlank (skipBlank text) = skipBlank text :=
  skipBlank_eq_self (stops_skipBlank text)

/-- Blanks before a mark are skipped exactly if the mark is what they lead to. -/
theorem skipBlank_eq_cons {text next : List Char} {c : Char} (hc : isBlank c = false) :
    skipBlank text = c :: next ↔ Blanks text (c :: next) := by
  constructor
  · intro h
    exact h ▸ blanks_skipBlank text
  · intro h
    exact h.skipBlank_eq (stops_cons.mpr hc)

@[simp] theorem expect_cons (c : Char) (next : List Char) : expect c (c :: next) = .ok ((), next) :=
  if_pos rfl

theorem expect_eq_ok {c : Char} {text next : List Char} {u : Unit} :
    expect c text = .ok (u, next) ↔ text = c :: next := by
  cases text with
  | nil => simp [expect]
  | cons found rest =>
    by_cases h : found = c
    · simp [expect, h]
    · simp [expect, h]

end LiteralBridge.Literal
