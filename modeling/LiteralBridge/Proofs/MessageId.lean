import LiteralBridge.MessageId

/-! # Identifiers read back

The text of an identifier has lower-case digits in it and hyphens between the groups, so of the ways
to write an identifier it is one only, and there it stands for that identifier (`ofText?_text`). -/

namespace LiteralBridge

open Text

theorem Text.forall_mem_hexDigits {P : Char → Prop} (h : ∀ d < 16, P (Nat.digitChar d))
    (width n : Nat) : ∀ c ∈ hexDigits width n, P c := by
  induction width generalizing n with
  | zero => simp [hexDigits]
  | succ width ih =>
    intro c hc
    rw [hexDigits, List.mem_append, List.mem_singleton] at hc
    rcases hc with hc | rfl
    · exact ih _ c hc
    · exact h _ (Nat.mod_lt n (by decide))

namespace MessageId

theorem length_hyphenated {digits : List Char} (h : digits.length = 32) :
    (hyphenated digits).length = 36 := by
  simp [hyphenated, h]

theorem mem_hyphenated {digits : List Char} {c : Char} (hc : c ∈ hyphenated digits) :
    c ∈ digits ∨ c = '-' := by
  simp only [hyphenated, List.mem_append, List.mem_cons] at hc
  rcases hc with (((hc | rfl | hc) | rfl | hc) | rfl | hc) | rfl | hc
  any_goals exact .inr rfl
  · exact .inl (List.mem_of_mem_take hc)
  · exact .inl (List.mem_of_mem_drop (List.mem_of_mem_take hc))
  · exact .inl (List.mem_of_mem_drop (List.mem_of_mem_take hc))
  · exact .inl (List.mem_of_mem_drop (List.mem_of_mem_take hc))
  · exact .inl (List.mem_of_mem_drop hc)

/-- The groups together are the digits. -/
theorem filter_hyphenated {digits : List Char} (h : ∀ c ∈ digits, c ≠ '-') :
    (hyphenated digits).filter (· != '-') = digits := by
  have group {cs : List Char} (hcs : ∀ c ∈ cs, c ∈ digits) : cs.filter (· != '-') = cs := by
    apply List.filter_eq_self.mpr
    intro c hc
    simpa using h c (hcs c hc)
  have h₄ := List.take_append_drop 4 (digits.drop 16)
  have h₃ := List.take_append_drop 4 (digits.drop 12)
  have h₂ := List.take_append_drop 4 (digits.drop 8)
  rw [List.drop_drop] at h₄ h₃ h₂
  simp only [hyphenated, List.filter_append, List.filter_cons]
  rw [group fun c hc => List.mem_of_mem_take hc,
    group fun c hc => List.mem_of_mem_drop (List.mem_of_mem_take hc),
    group fun c hc => List.mem_of_mem_drop (List.mem_of_mem_take hc),
    group fun c hc => List.mem_of_mem_drop (List.mem_of_mem_take hc),
    group fun c hc => List.mem_of_mem_drop hc]
  simp [h₄, h₃, h₂]

variable (id : MessageId)

theorem forall_mem_render {P : Char → Prop} (hd : ∀ d < 16, P (Nat.digitChar d)) (hh : P '-') :
    ∀ c ∈ id.render, P c := by
  intro c hc
  rcases mem_hyphenated hc with hc | rfl
  · exact forall_mem_hexDigits hd 32 _ c hc
  · exact hh

theorem ofDigits?_hexDigits : ofDigits? (hexDigits 32 id.bits.toNat) = some id := by
  have hm : id.bits.toNat % Nat.pow 16 32 = id.bits.toNat := Nat.mod_eq_of_lt id.bits.isLt
  rw [ofDigits?, if_pos (length_hexDigits 32 _), readHex_hexDigits, hm]
  simp

theorem ofHyphenated?_render : ofHyphenated? id.render = some id := by
  have hf := filter_hyphenated (forall_mem_hexDigits (P := (· ≠ '-')) (by decide) 32 id.bits.toNat)
  rw [render, ofHyphenated?]
  simp only [hf, if_true]
  exact ofDigits?_hexDigits id

/-- The text of an identifier writes that identifier. -/
theorem ofText?_text : ofText? id.text = some id := by
  have hurn : afterUrn? id.render = none := by
    rw [afterUrn?, if_neg]
    intro ha
    have hu : 'u' ∈ (id.render.take 9).map Char.toLower := ha ▸ by decide
    obtain ⟨c, hc, hlower⟩ := List.mem_map.mp hu
    have hne := id.forall_mem_render (P := fun c => c.toLower ≠ 'u') (by decide) (by decide)
    exact hne c (List.mem_of_mem_take hc) hlower
  have hbraces : betweenBraces? id.render = none := by
    rw [betweenBraces?]
    intro rest hr
    have hb : '{' ∈ id.render := hr ▸ List.mem_cons_self
    exact absurd rfl (id.forall_mem_render (P := (· ≠ '{')) (by decide) (by decide) _ hb)
  have hdigits : ofDigits? id.render = none := by
    have hl : id.render.length = 36 := length_hyphenated (length_hexDigits 32 _)
    simp [ofDigits?, hl]
  rw [ofText?, text, String.toList_ofList, ofChars?, hurn]
  simp only [hbraces, hdigits, ofHyphenated?_render, Option.none_or]

end MessageId

end LiteralBridge
