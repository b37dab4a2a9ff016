import LiteralBridge.Proofs.Literal.Rendering

/-! # Literals are told apart by their text

A text denotes one literal at most, and ends with it at one place (`Grammar.Denotes.unique`). So a
written literal is known from a longer text that begins with it (`render_append_inj`). A literal that
begins like a name is a name or a call. -/

namespace LiteralBridge.Literal

open Text Grammar

/-! ## Reading in one way -/

theorem Grammar.Denotes.unique {room : Nat} {text next next' : List Char}
    {literal literal' : Literal} (h : Denotes room text literal next)
    (h' : Denotes room text literal' next') : literal = literal' ∧ next = next' := by
  have hr := recognizes_readValue room (text.length + 1) room
  have hread := (hr.read_eq (Nat.lt_succ_self _) (.refl text) h).2
  rw [(hr.read_eq (Nat.lt_succ_self _) (.refl text) h').2] at hread
  obtain ⟨rfl, rfl⟩ := Prod.mk.inj (Except.ok.inj hread)
  exact ⟨rfl, rfl⟩

/-- A written literal, and the place where it ends, can be told from the text. -/
theorem render_append_inj {literal literal' : Literal} (hf : literal.Fits) (hf' : literal'.Fits)
    {next next' : List Char} (hs : Stops continuesNumber next) (hs' : Stops continuesNumber next')
    (h : literal.render ++ next = literal'.render ++ next') :
    literal.canonical = literal'.canonical ∧ next = next' := by
  have hd := denotes_render hf (Nat.le_max_left _ literal'.depth) next hs
  rw [h] at hd
  exact hd.unique (denotes_render hf' (Nat.le_max_right literal.depth _) next' hs')

/-- A written literal begins like one. -/
theorem head_render {literal : Literal} (hf : literal.Fits) :
    ∃ c rest, literal.render = c :: rest ∧ beginsLiteral c = true := by
  have hd := denotes_render hf (Nat.le_refl _) [] (stops_nil _)
  rw [List.append_nil] at hd
  exact (recognizes_readValue 0 0 literal.depth).head hd

/-! ## Names -/

theorem not_isDigit_of_isNameStart {c : Char} (h : isNameStart c = true) : c.isDigit = false := by
  rcases Bool.or_eq_true_iff.mp h with h | h
  · exact isDigit_eq_false_of_isAlpha h
  · rw [beq_iff_eq.mp h]
    decide

/-- A name ends where what follows it cannot go on with it. -/
theorem name_append_inj {name name' : String} (hid : isIdentifier name = true)
    (hid' : isIdentifier name' = true) {rest rest' : List Char} (hs : Stops isNameRest rest)
    (hs' : Stops isNameRest rest') (h : name.toList ++ rest = name'.toList ++ rest') :
    name = name' ∧ rest = rest' := by
  have all {name : String} (hid : isIdentifier name = true) :
      ∀ c ∈ name.toList, isNameRest c = true :=
    List.all_eq_true.mp (all_isNameRest_of_isName hid)
  have ht := congrArg (List.takeWhile isNameRest) h
  rw [takeWhile_append_of_stops (all hid) hs, takeWhile_append_of_stops (all hid') hs'] at ht
  rw [ht] at h
  exact ⟨String.toList_injective ht, List.append_cancel_left h⟩

/-- Only names and calls begin like a name. -/
theorem Grammar.Denotes.name {room : Nat} {c : Char} {rest next : List Char} {literal : Literal}
    (h : Denotes room (c :: rest) literal next) (hc : isNameStart c = true) :
    Name (c :: rest) literal next := by
  have mark : ¬ (isBracket c = true ∨ isQuote c = true ∨ c = '-') := by
    intro hm
    rw [(not_letter_of_mark hm).2.2] at hc
    exact Bool.false_ne_true hc
  have scalar (h : Scalar (c :: rest) literal next) : Name (c :: rest) literal next := by
    rcases h.cons_cases with ⟨-, h⟩ | ⟨hm | hd, -⟩ | ⟨hq, -⟩
    · exact h
    · exact absurd (.inr (.inr hm)) mark
    · rw [not_isDigit_of_isNameStart hc] at hd
      exact absurd hd Bool.false_ne_true
    · exact absurd (.inr (.inl hq)) mark
  cases room with
  | zero => exact scalar h
  | succ room =>
    rcases h with h | h
    · exact scalar h
    · obtain ⟨d, tail, he, hd⟩ := h.head
      obtain ⟨rfl, rfl⟩ := List.cons.inj he
      exact absurd (.inl hd) mark

/-- After the characters of a name comes what follows it, or the parenthesis of a call. -/
theorem Grammar.Name.dropWhile_isNameRest {text next : List Char} {literal : Literal}
    (h : Name text literal next) :
    text.dropWhile isNameRest = next ∨ ∃ rest, text.dropWhile isNameRest = '(' :: rest := by
  have call {name : String} (hn : name.toList.all isNameRest = true) (rest : List Char) :
      (name.toList ++ '(' :: rest).dropWhile isNameRest = '(' :: rest :=
    (span_token hn (stops_cons.mpr (by decide))).2
  cases h with
  | @constant name literal next hc stop =>
    have hname : ∀ e ∈ constants, e.1.toList.all isNameRest = true := by decide
    exact .inl (span_token (hname _ hc) stop).2
  | floatCall => exact .inr ⟨_, call (by decide) _⟩
  | setCall => exact .inr ⟨_, call (by decide) _⟩

/-- No literal ends within or right after a name that another mark than a parenthesis follows. -/
theorem Grammar.Denotes.dropWhile_isNameRest {room : Nat} {name text next : List Char}
    {literal : Literal} (hn : isName name = true) (hs : Stops isNameRest text)
    (hp : text.head? ≠ some '(') (h : Denotes room (name ++ text) literal next) : next = text := by
  have hd : (name ++ text).dropWhile isNameRest = text :=
    dropWhile_append_of_stops (List.all_eq_true.mp (all_isNameRest_of_isName hn)) hs
  cases name with
  | nil => simp [isName] at hn
  | cons c rest =>
    have hc : isNameStart c = true := (Bool.and_eq_true_iff.mp hn).1
    rcases (h.name hc).dropWhile_isNameRest with he | ⟨more, he⟩
    · exact he.symm.trans hd
    · have ht : text = '(' :: more := hd.symm.trans he
      simp [ht] at hp

end LiteralBridge.Literal
