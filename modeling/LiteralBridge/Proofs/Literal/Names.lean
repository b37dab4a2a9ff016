import LiteralBridge.Proofs.Literal.Strings

/-! # Reading names

`readName_eq_ok` says that the reader of names accepts exactly the names and calls of the grammar. -/

namespace LiteralBridge.Literal

open Text Grammar

/-- A word after a sign: infinity with that sign, or no number. -/
theorem specialFloat?_of_sign {argument body : List Char} (negative : Bool) {x : Binary64}
    (h : (if body = "inf".toList ∨ body = "infinity".toList then
        some (Binary64.infinity negative)
      else if body = "nan".toList then some Binary64.nan else Option.none) = some x)
    (hs : (trim argument).map lowerAscii = (if negative then '-' else '+') :: body ∨
      negative = false ∧ (trim argument).map lowerAscii = body) : SpecialFloat argument x := by
  by_cases hi : body = "inf".toList ∨ body = "infinity".toList
  · rw [if_pos hi, Option.some.injEq] at h
    subst h
    cases negative with
    | false => exact .infinity hi (hs.symm.imp And.right id)
    | true => exact .negativeInfinity hi (by simpa using hs)
  · rw [if_neg hi] at h
    by_cases hn : body = "nan".toList
    · rw [if_pos hn, Option.some.injEq] at h
      subst h hn
      rcases hs with hs | ⟨-, hs⟩
      · cases negative with
        | false => exact .nan (.inr (.inl rfl)) hs
        | true => exact .nan (.inr (.inr rfl)) hs
      · exact .nan (.inl rfl) hs
    · rw [if_neg hn] at h
      simp at h

theorem specialFloat?_eq_some {argument : List Char} {x : Binary64} :
    specialFloat? argument = some x ↔ SpecialFloat argument x := by
  constructor
  · intro h
    simp only [specialFloat?] at h
    split at h
    · next rest hl => exact specialFloat?_of_sign true h (.inl hl)
    · next rest hl => exact specialFloat?_of_sign false h (.inl hl)
    · exact specialFloat?_of_sign false h (.inr ⟨rfl, rfl⟩)
  · intro h
    cases h with
    | @infinity word h ha =>
      rcases h with rfl | rfl
      · rcases ha with ha | ha <;> simp [specialFloat?, ha]
      · rcases ha with ha | ha <;> simp [specialFloat?, ha]
    | @negativeInfinity word h ha =>
      rcases h with rfl | rfl
      · simp [specialFloat?, ha]
      · simp [specialFloat?, ha]
    | @nan sign h ha =>
      rcases h with rfl | rfl | rfl <;> simp [specialFloat?, ha]

/-- The argument list of the call `float(...)`, whatever is reported where it has no meaning. -/
theorem readFloatCall_eq_ok {start text next : List Char} {literal : Literal} :
    readFloatCall start text = .ok (literal, next) ↔
      ∃ rest quoted after argument x, text = '(' :: rest ∧ Blanks rest quoted ∧
        Quoted quoted argument after ∧ Blanks after (')' :: next) ∧
        SpecialFloat argument.toList x ∧ literal = .float x := by
  constructor
  · intro h
    obtain ⟨⟨u, rest⟩, ho, h⟩ := bind_eq_ok.mp h
    cases hq : skipBlank rest with
    | nil => simp [hq] at h
    | cons quote inside =>
      simp only [hq, List.head?_cons, Option.any_some, Bool.or_eq_true, beq_iff_eq] at h
      by_cases hquote : quote = '"' ∨ quote = '\''
      · rw [if_pos hquote] at h
        obtain ⟨⟨argument, after⟩, hr, h⟩ := bind_eq_ok.mp h
        obtain ⟨⟨u', next'⟩, hc, h⟩ := bind_eq_ok.mp h
        cases hx : specialFloat? argument.toList with
        | none => simp [hx] at h
        | some x =>
          simp only [hx, Except.ok.injEq, Prod.mk.injEq] at h
          obtain ⟨rfl, rfl⟩ := h
          refine ⟨rest, quote :: inside, after, argument, x, expect_eq_ok.mp ho,
            hq ▸ blanks_skipBlank rest, (readString_eq_ok hquote).mp hr, ?_,
            specialFloat?_eq_some.mp hx, rfl⟩
          exact (skipBlank_eq_cons (by decide)).mp (expect_eq_ok.mp hc)
      · rw [if_neg hquote] at h
        simp at h
  · rintro ⟨rest, quoted, after, argument, x, rfl, hb, hq, ha, hx, rfl⟩
    obtain ⟨quote, inside, hquote, rfl, hi⟩ := id hq
    have hskip : skipBlank rest = quote :: inside := by
      refine hb.skipBlank_eq (stops_cons.mpr ?_)
      rcases hquote with rfl | rfl <;> decide
    have hany : (quote == '"' || quote == '\'') = true := by simpa using hquote
    have hclose := (skipBlank_eq_cons (by decide)).mpr ha
    simp only [readFloatCall, expect_cons, ok_bind, hskip, List.head?_cons,
      Option.any_some, hany, if_true, (readString_eq_ok hquote).mpr hq, hclose,
      specialFloat?_eq_some.mpr hx]

theorem readSetCall_eq_ok {text next : List Char} {literal : Literal} :
    readSetCall text = .ok (literal, next) ↔
      ∃ rest, text = '(' :: rest ∧ Blanks rest (')' :: next) ∧ literal = .set [] := by
  constructor
  · intro h
    obtain ⟨⟨u, rest⟩, ho, h⟩ := bind_eq_ok.mp h
    obtain ⟨⟨u', next'⟩, hc, h⟩ := bind_eq_ok.mp h
    obtain ⟨rfl, rfl⟩ := Prod.mk.inj (Except.ok.inj h)
    exact ⟨rest, expect_eq_ok.mp ho, (skipBlank_eq_cons (by decide)).mp (expect_eq_ok.mp hc), rfl⟩
  · rintro ⟨rest, rfl, hb, rfl⟩
    have hclose := (skipBlank_eq_cons (by decide)).mpr hb
    simp only [readSetCall, expect_cons, ok_bind, hclose]

/-! ## Names -/

theorem append_dropWhile_of_token {p : Char → Bool} {text : List Char} {token : String}
    (h : String.ofList (text.takeWhile p) = token) : text = token.toList ++ text.dropWhile p := by
  rw [← h, String.toList_ofList, List.takeWhile_append_dropWhile]

theorem name_of_readName {text next : List Char} {literal : Literal}
    (h : readName text = .ok (literal, next)) : Name text literal next := by
  have stop := stops_dropWhile isNameRest text
  have constant {name : String} {found : Literal} (hc : (name, found) ∈ constants)
      (ht : String.ofList (text.takeWhile isNameRest) = name)
      (hok : (.ok (found, text.dropWhile isNameRest) : Except Stop (Literal × List Char)) =
        .ok (literal, next)) : Name text literal next := by
    obtain ⟨rfl, rfl⟩ := Prod.mk.inj (Except.ok.inj hok)
    have hname := Name.constant hc stop
    rwa [← append_dropWhile_of_token ht] at hname
  simp only [readName] at h
  split at h
  · next ht => exact constant (by simp [constants]) ht h
  · next ht => exact constant (by simp [constants]) ht h
  · next ht => exact constant (by simp [constants]) ht h
  · next ht => exact constant (by simp [constants]) ht h
  · next ht => exact constant (by simp [constants]) ht h
  · next ht =>
    obtain ⟨rest, quoted, after, argument, x, hr, hb, hq, ha, hx, rfl⟩ := readFloatCall_eq_ok.mp h
    rw [append_dropWhile_of_token ht, hr]
    exact .floatCall hb hq ha hx
  · next ht =>
    obtain ⟨rest, hr, hb, rfl⟩ := readSetCall_eq_ok.mp h
    rw [append_dropWhile_of_token ht, hr]
    exact .setCall hb
  · simp at h

theorem span_token {p : Char → Bool} {token : String} {next : List Char}
    (h : token.toList.all p = true) (stop : Stops p next) :
    String.ofList ((token.toList ++ next).takeWhile p) = token ∧
      (token.toList ++ next).dropWhile p = next := by
  rw [List.all_eq_true] at h
  rw [takeWhile_append_of_stops h stop, dropWhile_append_of_stops h stop, String.ofList_toList]
  exact ⟨rfl, rfl⟩

/-- The reader of names accepts exactly the names and calls of the grammar. -/
theorem readName_eq_ok {text next : List Char} {literal : Literal} :
    readName text = .ok (literal, next) ↔ Name text literal next := by
  refine ⟨name_of_readName, fun h => ?_⟩
  cases h with
  | @constant name literal next hc stop =>
    have hname : (constants.all fun e => e.1.toList.all isNameRest) = true := by decide
    obtain ⟨ht, hd⟩ := span_token (List.all_eq_true.mp hname _ hc) stop
    simp only [constants, List.mem_cons, Prod.mk.injEq, List.not_mem_nil, or_false] at hc
    rcases hc with ⟨rfl, rfl⟩ | ⟨rfl, rfl⟩ | ⟨rfl, rfl⟩ | ⟨rfl, rfl⟩ | ⟨rfl, rfl⟩ <;>
      simp only [readName, ht, hd]
  | @floatCall text quoted after next argument x hb hq ha hx =>
    have stop : Stops isNameRest ('(' :: text) := stops_cons.mpr (by decide)
    obtain ⟨ht, hd⟩ := span_token (by decide : "float".toList.all isNameRest = true) stop
    simp only [readName, ht, hd]
    exact readFloatCall_eq_ok.mpr ⟨text, quoted, after, argument, x, rfl, hb, hq, ha, hx, rfl⟩
  | @setCall text next hb =>
    have stop : Stops isNameRest ('(' :: text) := stops_cons.mpr (by decide)
    obtain ⟨ht, hd⟩ := span_token (by decide : "set".toList.all isNameRest = true) stop
    simp only [readName, ht, hd]
    exact readSetCall_eq_ok.mpr ⟨text, rfl, hb, rfl⟩

/-- A name begins with a letter. -/
theorem Grammar.Name.head_isAlpha {text next : List Char} {literal : Literal}
    (h : Name text literal next) : ∃ c rest, text = c :: rest ∧ c.isAlpha = true := by
  cases h with
  | constant hc stop =>
    simp only [constants, List.mem_cons, Prod.mk.injEq, List.not_mem_nil, or_false] at hc
    rcases hc with ⟨rfl, rfl⟩ | ⟨rfl, rfl⟩ | ⟨rfl, rfl⟩ | ⟨rfl, rfl⟩ | ⟨rfl, rfl⟩ <;>
      exact ⟨_, _, rfl, by decide⟩
  | floatCall => exact ⟨'f', _, rfl, by decide⟩
  | setCall => exact ⟨'s', _, rfl, by decide⟩

theorem Grammar.Name.length_lt {text next : List Char} {literal : Literal}
    (h : Name text literal next) : next.length < text.length := by
  cases h with
  | constant hc =>
    have hname : ∀ e ∈ constants, 0 < e.1.toList.length := by decide
    have hl := hname _ hc
    simp only [List.length_append] at hl ⊢
    omega
  | floatCall hb hq ha =>
    have hl := hb.length_le
    have hl' := hq.length_lt
    have hl'' := ha.length_le
    simp only [List.length_append, List.length_cons] at hl'' ⊢
    omega
  | setCall hb =>
    have hl := hb.length_le
    simp only [List.length_append, List.length_cons] at hl ⊢
    omega

end LiteralBridge.Literal
