import LiteralBridge.Proofs.Literal.Floats
import LiteralBridge.Proofs.Literal.Limit
import LiteralBridge.Proofs.Literal.Quoting

/-! # Reading what was written

The canonical text of a literal denotes it, at every depth from its own on (`denotes_render`). So it
is read back if the limit allows its depth, and else it is refused for that reason alone
(`parse_source`). -/

namespace LiteralBridge.Literal

open Text Grammar

/-! ## Scalars -/

/-- The digits of a written integer have no leading zeros. -/
theorem number_decimalInt {i : Int} (hi : FitsInt i) {next : List Char}
    (hs : Stops continuesNumber next) : Number (decimalInt i ++ next) (.int i) next := by
  have hd (n : Nat) : Digits (decimal n) := ⟨decimal_ne_nil n, fun c hc => isDigit_of_mem_decimal hc⟩
  have zeros (n : Nat) (h : (decimal n).head? = some '0') : ∀ c ∈ decimal n, c = '0' := by
    intro c hc
    rw [eq_zero_of_head_decimal h] at hc
    exact List.mem_singleton.mp hc
  have integer (negative : Bool) (n : Nat) (h : i = signed negative (decimal n)) :
      Number (minus negative ++ (decimal n ++ next)) (.int i) next := by
    rw [h] at hi ⊢
    exact .integer (hd n) (zeros n) hi hs
  cases i with
  | ofNat n => exact integer false n (by rw [signed, ofDecimal_decimal]; rfl)
  | negSucc n => exact integer true (n + 1) (by rw [signed, ofDecimal_decimal]; rfl)

/-- What ends a number ends a name too. -/
theorem Grammar.Stops.nameRest {next : List Char} (hs : Stops continuesNumber next) :
    Stops isNameRest next := by
  refine hs.mono fun c hc => ?_
  simp only [isNameRest, Bool.or_eq_true] at hc
  rcases hc with hc | hc
  · simp [continuesNumber, isAlphanumeric_of_isAlphanum hc]
  · simp [continuesNumber, hc]

/-- A literal without depth is written without brackets. -/
theorem scalar_render {literal : Literal} (hf : literal.Fits) (hd : literal.depth = 0)
    {next : List Char} (hs : Stops continuesNumber next) :
    Scalar (literal.render ++ next) literal.canonical next := by
  cases literal with
  | none => exact .name (.constant (by simp [constants, canonical]) hs.nameRest)
  | bool b =>
    cases b with
    | false => exact .name (.constant (by simp [constants, canonical]) hs.nameRest)
    | true => exact .name (.constant (by simp [constants, canonical]) hs.nameRest)
  | int i => exact .number (number_decimalInt hf hs)
  | float x => exact scalar_renderFloat x hs
  | str s => exact .string (quoted_renderString s next)
  | list items => simp [depth] at hd
  | tuple items => simp [depth] at hd
  | set items =>
    cases items with
    | nil => exact .name (.setCall (.refl _))
    | cons literal rest => simp [depth] at hd
  | dict entries => simp [depth] at hd

/-! ## Brackets -/

/-- Texts that denote items wherever they end denote them with commas between them. -/
theorem separated_commaSeparated {α β : Type} {Item : List Char → β → List Char → Prop}
    {written : α → List Char} {meaning : α → β} {xs : List α}
    (hi : ∀ x ∈ xs, ∀ next, Stops continuesNumber next → Item (written x ++ next) (meaning x) next)
    {closing : Char} (hc : continuesNumber closing = false) (next : List Char) :
    ∃ comma, Separated Item (commaSeparated (xs.map written) ++ closing :: next) (xs.map meaning)
      comma (closing :: next) := by
  -- After the first item a space stands before each one.
  suffices ∀ text, Blanks text (commaSeparated (xs.map written) ++ closing :: next) →
      ∃ comma, Separated Item text (xs.map meaning) comma (closing :: next) from this _ (.refl _)
  induction xs with
  | nil => exact fun text hb => ⟨false, .nil hb⟩
  | cons x rest ih =>
    intro text hb
    have hx := hi x List.mem_cons_self
    cases rest with
    | nil =>
      exact ⟨false, .last hb (hx _ (stops_cons.mpr hc)) (.refl _)⟩
    | cons y more =>
      obtain ⟨comma, h⟩ := ih (fun z hz => hi z (List.mem_cons_of_mem _ hz))
        (' ' :: (commaSeparated ((y :: more).map written) ++ closing :: next)) (.space _)
      have ht : commaSeparated ((x :: y :: more).map written) ++ closing :: next =
          written x ++ ',' :: ' ' :: (commaSeparated ((y :: more).map written) ++ closing :: next) := by
        simp [commaSeparated]
      rw [ht] at hb
      exact ⟨true, .more hb (hx _ (stops_cons.mpr (by decide))) (.refl _) h⟩

section Brackets

variable {Item : List Char → Literal → List Char → Prop}

theorem entry_renderEntry {key value : Literal}
    (hk : ∀ next, Stops continuesNumber next → Item (key.render ++ next) key.canonical next)
    (hv : ∀ next, Stops continuesNumber next → Item (value.render ++ next) value.canonical next)
    (next : List Char) (hs : Stops continuesNumber next) :
    Entry Item (renderEntry key.render value.render ++ next) (key.canonical, value.canonical)
      next := by
  refine ⟨':' :: ' ' :: (value.render ++ next), ' ' :: (value.render ++ next), value.render ++ next,
    ?_, .refl _, .space _, hv next hs⟩
  have ht : renderEntry key.render value.render ++ next =
      key.render ++ ':' :: ' ' :: (value.render ++ next) := by
    simp [renderEntry]
  rw [ht]
  exact hk _ (stops_cons.mpr (by decide))

/-- The comma after a single item keeps the parentheses from grouping. -/
theorem bracketed_parenthesized {items : List Literal}
    (hi : ∀ item ∈ items, ∀ next, Stops continuesNumber next →
      Item (item.render ++ next) item.canonical next) (next : List Char) :
    Bracketed Item (parenthesized (items.map render) ++ next) (.tuple (items.map canonical))
      next := by
  have several (h : items.length ≠ 1)
      (hp : parenthesized (items.map render) = bracketed '(' ')' (items.map render)) :
      Bracketed Item (parenthesized (items.map render) ++ next) (.tuple (items.map canonical))
        next := by
    obtain ⟨comma, hsep⟩ :=
      separated_commaSeparated hi (by decide : continuesNumber ')' = false) next
    rw [hp, bracketed, List.cons_append, List.append_assoc]
    exact .tuple hsep (by simp [h])
  match items with
  | [] => exact several (by decide) rfl
  | [item] =>
    have ht : parenthesized ([item].map render) ++ next = '(' :: (item.render ++ ',' :: ')' :: next) := by
      simp [parenthesized]
    rw [ht]
    refine .tuple (.more (.refl _) (hi item List.mem_cons_self _ (stops_cons.mpr (by decide)))
      (.refl _) (.nil (.refl _))) fun _ => rfl
  | first :: second :: more => exact several (by simp) rfl

theorem renderSet_of_ne_nil {parts : List (List Char)} (h : parts ≠ []) :
    renderSet parts = bracketed '{' '}' parts := by
  cases parts with
  | nil => exact absurd rfl h
  | cons part rest => rfl

/-- A literal with depth is written in brackets, and its items with one level less. -/
theorem bracketed_render {room : Nat} {literal : Literal}
    (hi : ∀ item : Literal, item.Fits → item.depth ≤ room → ∀ next, Stops continuesNumber next →
      Item (item.render ++ next) item.canonical next)
    (hf : literal.Fits) (hpos : literal.depth ≠ 0) (hd : literal.depth ≤ room + 1)
    (next : List Char) : Bracketed Item (literal.render ++ next) literal.canonical next := by
  have all {items : List Literal} (hf : FitsAll items) (hd : depthAll items ≤ room) :
      ∀ item ∈ items, ∀ next, Stops continuesNumber next →
        Item (item.render ++ next) item.canonical next :=
    fun item h => hi item (fitsAll_iff.mp hf item h) (depthAll_le_iff.mp hd item h)
  cases literal with
  | none => simp [depth] at hpos
  | bool b => simp [depth] at hpos
  | int i => simp [depth] at hpos
  | float x => simp [depth] at hpos
  | str s => simp [depth] at hpos
  | list items =>
    obtain ⟨comma, h⟩ := separated_commaSeparated (all hf (Nat.le_of_succ_le_succ hd))
      (by decide : continuesNumber ']' = false) next
    rw [render, canonical, renderAll_eq_map, canonicalAll_eq_map, bracketed, List.cons_append,
      List.append_assoc]
    exact .list h
  | tuple items =>
    rw [render, canonical, renderAll_eq_map, canonicalAll_eq_map]
    exact bracketed_parenthesized (all hf (Nat.le_of_succ_le_succ hd)) next
  | set items =>
    by_cases hempty : items = []
    · simp [depth, hempty] at hpos
    simp only [depth, List.isEmpty_iff, if_neg hempty] at hd
    obtain ⟨comma, h⟩ := separated_commaSeparated (all hf (Nat.le_of_succ_le_succ hd))
      (by decide : continuesNumber '}' = false) next
    rw [render, canonical, renderAll_eq_map, canonicalAll_eq_map,
      renderSet_of_ne_nil (by simpa using hempty), bracketed, List.cons_append, List.append_assoc]
    exact .set h (by simpa using hempty)
  | dict entries =>
    have hentries := depthEntries_le_iff.mp (Nat.le_of_succ_le_succ hd)
    have hfits := fitsEntries_iff.mp hf
    have hentry : ∀ entry ∈ entries, ∀ next, Stops continuesNumber next →
        Entry Item (renderEntry entry.1.render entry.2.render ++ next)
          (entry.1.canonical, entry.2.canonical) next :=
      fun entry he => entry_renderEntry (hi entry.1 (hfits entry he).1 (hentries entry he).1)
        (hi entry.2 (hfits entry he).2 (hentries entry he).2)
    obtain ⟨comma, h⟩ :=
      separated_commaSeparated hentry (by decide : continuesNumber '}' = false) next
    rw [render, canonical, renderEntries_eq_map, canonicalEntries_eq_map, bracketed,
      List.cons_append, List.append_assoc]
    exact .dict h

end Brackets

/-- The canonical text of a literal denotes it wherever no number would go on after it. -/
theorem denotes_render {room : Nat} {literal : Literal} (hf : literal.Fits)
    (hd : literal.depth ≤ room) (next : List Char) (hs : Stops continuesNumber next) :
    Denotes room (literal.render ++ next) literal.canonical next := by
  induction room generalizing literal next with
  | zero => exact scalar_render hf (Nat.le_zero.mp hd) hs
  | succ room ih =>
    by_cases hz : literal.depth = 0
    · exact .inl (scalar_render hf hz hs)
    · exact .inr (bracketed_render (fun item hf hd => ih hf hd) hf hz hd next)

/-! ## Whole texts -/

theorem parse_source_of_le {literal : Literal} (hf : literal.Fits) {limit : Nat}
    (hd : literal.depth ≤ limit) : parse limit literal.source = .ok literal.canonical := by
  rw [parse_eq_ok, readText_eq_ok, source, String.toList_ofList]
  refine ⟨literal.render, [], .refl _, ?_, .refl _⟩
  have h := denotes_render hf hd [] (stops_nil _)
  rwa [List.append_nil] at h

theorem parse_source_of_lt {literal : Literal} (hf : literal.Fits) {limit : Nat}
    (hd : limit < literal.depth) :
    ∃ offset, parse limit literal.source = .error ⟨offset, .tooDeep limit⟩ := by
  rcases parse_cutAt (Nat.le_of_lt hd) literal.source with h | h
  · rw [parse_source_of_le hf (Nat.le_refl _)] at h
    have hle := depth_le_of_parse h
    rw [depth_canonical] at hle
    omega
  · exact h

/-- A literal is read back from its text if its depth is within the limit, and refused for its depth
if it is not. -/
theorem parse_source {literal : Literal} (hf : literal.Fits) (limit : Nat) :
    (literal.depth ≤ limit → parse limit literal.source = .ok literal.canonical) ∧
      (limit < literal.depth →
        ∃ offset, parse limit literal.source = .error ⟨offset, .tooDeep limit⟩) :=
  ⟨parse_source_of_le hf, parse_source_of_lt hf⟩

/-- A table whose key is a tuple of one item, the least integer. -/
theorem parse_source_singleton_key :
    let literal := dict [(tuple [int (-0x80000000000000000000000000000000)],
      set [set [], list [], float Binary64.nan.neg])]
    literal.Fits ∧ parse 3 literal.source = .ok literal.canonical ∧
      ∃ offset, parse 2 literal.source = .error ⟨offset, .tooDeep 2⟩ := by
  intro literal
  have hf : literal.Fits := by
    simp only [literal, Fits, FitsAll, FitsEntries, and_true]
    decide
  have hd : literal.depth = 3 := by decide
  exact ⟨hf, (parse_source hf 3).1 (by omega), (parse_source hf 2).2 (by omega)⟩

end LiteralBridge.Literal
