import LiteralBridge.Proofs.Literal.Acceptance
import LiteralBridge.Proofs.Literal.Tree

/-! # The limit on nesting

A smaller limit only cuts a reading off: it gives what a larger one gives, or the error that the
limit is exceeded (`parse_cutAt`). A literal that is read is no deeper than the limit
(`Grammar.Denotes.depth_le`), and its integers have 128 bits (`Grammar.Denotes.fits`). -/

namespace LiteralBridge.Literal

open Text Grammar

/-! ## Depth -/

theorem Grammar.Separated.forall_mem {α : Type} {Item : List Char → α → List Char → Prop}
    {p : α → Prop} {text next : List Char} {xs : List α} {comma : Bool}
    (h : Separated Item text xs comma next) (hp : ∀ {text x next}, Item text x next → p x) :
    ∀ x ∈ xs, p x := by
  induction h with
  | nil => simp
  | last _ hx => simpa using hp hx
  | more _ hx _ _ ih =>
    intro y hy
    rcases List.mem_cons.mp hy with rfl | hy
    · exact hp hx
    · exact ih y hy

theorem Grammar.Scalar.depth_eq {text next : List Char} {literal : Literal}
    (h : Scalar text literal next) : literal.depth = 0 := by
  cases h with
  | name h =>
    cases h with
    | constant h =>
      simp only [constants, List.mem_cons, List.not_mem_nil, or_false, Prod.mk.injEq] at h
      rcases h with ⟨-, rfl⟩ | ⟨-, rfl⟩ | ⟨-, rfl⟩ | ⟨-, rfl⟩ | ⟨-, rfl⟩ <;> rfl
    | floatCall => rfl
    | setCall => rfl
  | negated => rfl
  | number h => cases h <;> rfl
  | string => rfl

theorem Grammar.Bracketed.depth_le {room : Nat} {Item : List Char → Literal → List Char → Prop}
    (hi : ∀ {text literal next}, Item text literal next → literal.depth ≤ room)
    {text next : List Char} {literal : Literal} (h : Bracketed Item text literal next) :
    literal.depth ≤ room + 1 := by
  cases h with
  | list h => exact Nat.succ_le_succ (depthAll_le_iff.mpr (h.forall_mem hi))
  | group h => exact Nat.le_succ_of_le (h.forall_mem hi _ (List.mem_singleton_self _))
  | tuple h => exact Nat.succ_le_succ (depthAll_le_iff.mpr (h.forall_mem hi))
  | set h hne =>
    simp only [depth, List.isEmpty_iff, if_neg hne]
    exact Nat.succ_le_succ (depthAll_le_iff.mpr (h.forall_mem hi))
  | dict h =>
    refine Nat.succ_le_succ (depthEntries_le_iff.mpr (h.forall_mem ?_))
    rintro _ entry _ ⟨after, rest, start, hk, -, -, hv⟩
    exact ⟨hi hk, hi hv⟩

theorem Grammar.Denotes.depth_le {room : Nat} {text next : List Char} {literal : Literal}
    (h : Denotes room text literal next) : literal.depth ≤ room := by
  induction room generalizing text literal next with
  | zero => exact Nat.le_of_eq (Scalar.depth_eq h)
  | succ room ih =>
    rcases h with h | h
    · exact h.depth_eq ▸ Nat.zero_le _
    · exact h.depth_le ih

/-! ## Integers -/

theorem Grammar.Scalar.fits {text next : List Char} {literal : Literal}
    (h : Scalar text literal next) : literal.Fits := by
  cases h with
  | name h =>
    cases h with
    | constant h =>
      simp only [constants, List.mem_cons, List.not_mem_nil, or_false, Prod.mk.injEq] at h
      rcases h with ⟨-, rfl⟩ | ⟨-, rfl⟩ | ⟨-, rfl⟩ | ⟨-, rfl⟩ | ⟨-, rfl⟩ <;> trivial
    | floatCall => trivial
    | setCall => trivial
  | negated => trivial
  | number h =>
    cases h with
    | integer _ _ fits => exact fits
    | float => trivial
  | string => trivial

theorem Grammar.Bracketed.fits {Item : List Char → Literal → List Char → Prop}
    (hi : ∀ {text literal next}, Item text literal next → literal.Fits) {text next : List Char}
    {literal : Literal} (h : Bracketed Item text literal next) : literal.Fits := by
  cases h with
  | list h => exact fitsAll_iff.mpr (h.forall_mem hi)
  | group h => exact h.forall_mem hi _ (List.mem_singleton_self _)
  | tuple h => exact fitsAll_iff.mpr (h.forall_mem hi)
  | set h => exact fitsAll_iff.mpr (h.forall_mem hi)
  | dict h =>
    refine fitsEntries_iff.mpr (h.forall_mem ?_)
    rintro _ entry _ ⟨after, rest, start, hk, -, -, hv⟩
    exact ⟨hi hk, hi hv⟩

/-- The integers of a literal that is read have 128 bits. -/
theorem Grammar.Denotes.fits {room : Nat} {text next : List Char} {literal : Literal}
    (h : Denotes room text literal next) : literal.Fits := by
  induction room generalizing text literal next with
  | zero => exact Scalar.fits h
  | succ room ih =>
    rcases h with h | h
    · exact h.fits
    · exact h.fits ih

/-! ## Readings that are cut off -/

/-- The first outcome is the second one, or says that the limit is exceeded. -/
def CutAt {α : Type} (limit : Nat) (r r' : Except Stop α) : Prop :=
  r = r' ∨ ∃ rest, r = .error ⟨.tooDeep limit, rest⟩

namespace CutAt

variable {limit : Nat} {α β : Type}

theorem refl (r : Except Stop α) : CutAt limit r r :=
  .inl rfl

theorem bind {r r' : Except Stop α} {f f' : α → Except Stop β} (h : CutAt limit r r')
    (hf : ∀ a, CutAt limit (f a) (f' a)) : CutAt limit (r >>= f) (r' >>= f') := by
  rcases h with rfl | ⟨rest, rfl⟩
  · cases r with
    | error stop => exact refl _
    | ok a => exact hf a
  · exact .inr ⟨rest, rfl⟩

variable {item item' : Reader Literal}

theorem readItems (h : ∀ cs, CutAt limit (item cs) (item' cs)) (opening closing : Char)
    (bound : Nat) (cs : List Char) :
    CutAt limit (readItems item opening closing bound cs)
      (readItems item' opening closing bound cs) := by
  induction bound generalizing cs with
  | zero => exact refl _
  | succ bound ih =>
    simp only [Literal.readItems]
    by_cases hc : (skipBlank cs).head? = some closing
    · simp only [if_pos hc]
      exact refl _
    simp only [if_neg hc]
    refine bind (h _) fun read => ?_
    obtain ⟨_, after⟩ := read
    dsimp only
    cases skipBlank after with
    | nil => exact refl _
    | cons c rest =>
      by_cases hcomma : c = ','
      · simp only [if_pos hcomma]
        exact bind (ih _) fun _ => refl _
      · simp only [if_neg hcomma]
        exact refl _

theorem readMembers (h : ∀ cs, CutAt limit (item cs) (item' cs)) (bound : Nat) (cs : List Char) :
    CutAt limit (readMembers item bound cs) (readMembers item' bound cs) := by
  induction bound generalizing cs with
  | zero => exact refl _
  | succ bound ih =>
    simp only [Literal.readMembers]
    refine bind (refl _) fun read => ?_
    obtain ⟨more, _⟩ := read
    cases more with
    | false => exact refl _
    | true => exact bind (h _) fun _ => bind (ih _) fun _ => refl _

theorem readEntries (h : ∀ cs, CutAt limit (item cs) (item' cs)) (bound : Nat) (cs : List Char) :
    CutAt limit (readEntries item bound cs) (readEntries item' bound cs) := by
  induction bound generalizing cs with
  | zero => exact refl _
  | succ bound ih =>
    simp only [Literal.readEntries]
    refine bind (refl _) fun read => ?_
    obtain ⟨more, _⟩ := read
    cases more with
    | false => exact refl _
    | true =>
      exact bind (h _) fun _ => bind (refl _) fun _ => bind (h _) fun _ =>
        bind (ih _) fun _ => refl _

theorem readBraces (h : ∀ cs, CutAt limit (item cs) (item' cs)) (bound : Nat) (cs : List Char) :
    CutAt limit (readBraces item bound cs) (readBraces item' bound cs) := by
  simp only [Literal.readBraces]
  by_cases hc : (skipBlank cs).head? = some '}'
  · simp only [if_pos hc]
    exact refl _
  simp only [if_neg hc]
  refine bind (h _) fun read => ?_
  obtain ⟨_, after⟩ := read
  dsimp only
  by_cases hcolon : (skipBlank after).head? = some ':'
  · simp only [if_pos hcolon]
    exact bind (h _) fun _ => bind (readEntries h _ _) fun _ => refl _
  · simp only [if_neg hcolon]
    exact bind (readMembers h _ _) fun _ => refl _

/-- A level without room for items is cut off at every bracket; elsewhere the room plays no part. -/
theorem readLevel {limit' : Nat} {item? item'? : Option (Reader Literal)} (bound : Nat)
    (h : ∀ item ∈ item?, ∃ item' ∈ item'?, ∀ cs, CutAt limit (item cs) (item' cs))
    (cs : List Char) :
    CutAt limit (readLevel limit bound item? cs) (readLevel limit' bound item'? cs) := by
  simp only [Literal.readLevel]
  cases skipBlank cs with
  | nil => exact refl _
  | cons c rest =>
    by_cases hb : c = '[' ∨ c = '(' ∨ c = '{'
    · simp only [if_pos hb]
      cases item? with
      | none => exact .inr ⟨rest, rfl⟩
      | some item =>
        obtain ⟨item', rfl, hitem⟩ := h item rfl
        by_cases hl : c = '['
        · simp only [if_pos hl]
          exact bind (readItems hitem _ _ _ _) fun _ => refl _
        by_cases hp : c = '('
        · simp only [if_neg hl, if_pos hp]
          exact bind (readItems hitem _ _ _ _) fun _ => refl _
        · simp only [if_neg hl, if_neg hp]
          exact readBraces hitem _ _
    · simp only [if_neg hb]
      exact refl _

theorem readValue {limit' room room' : Nat} (bound : Nat) (hr : room ≤ room') (cs : List Char) :
    CutAt limit (readValue limit bound room cs) (readValue limit' bound room' cs) := by
  induction room generalizing room' cs with
  | zero =>
    cases room' <;> exact readLevel bound (by simp) cs
  | succ room ih =>
    cases room' with
    | zero => omega
    | succ room' =>
      refine readLevel bound (fun item hitem => ?_) cs
      obtain rfl := Option.mem_some.mp hitem
      exact ⟨_, rfl, fun cs => ih (by omega) cs⟩

end CutAt

theorem readText_cutAt {limit limit' : Nat} (h : limit ≤ limit') (cs : List Char) :
    CutAt limit (readText limit cs) (readText limit' cs) :=
  (CutAt.readValue _ h cs).bind fun _ => .refl _

/-- With a smaller limit a text is read in the same way, with success or an error at the same place,
or found to exceed the limit. -/
theorem parse_cutAt {limit limit' : Nat} (h : limit ≤ limit') (text : String) :
    parse limit text = parse limit' text ∨
      ∃ offset, parse limit text = .error ⟨offset, .tooDeep limit⟩ := by
  rcases readText_cutAt h text.toList with he | ⟨rest, he⟩
  · exact .inl (by rw [parse, parse, he])
  · exact .inr ⟨offsetOf text.toList rest, by rw [parse, he]⟩

theorem depth_le_of_parse {limit : Nat} {text : String} {literal : Literal}
    (h : parse limit text = .ok literal) : literal.depth ≤ limit := by
  obtain ⟨start, rest, -, hd, -⟩ := readText_eq_ok.mp (parse_eq_ok.mp h)
  exact hd.depth_le

theorem fits_of_parse {limit : Nat} {text : String} {literal : Literal}
    (h : parse limit text = .ok literal) : literal.Fits := by
  obtain ⟨start, rest, -, hd, -⟩ := (parse_eq_ok_iff limit text literal).mp h
  exact hd.fits

end LiteralBridge.Literal
