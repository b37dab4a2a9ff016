import LiteralBridge.Text.Cut

/-! # Cutting at the first mark

A text is cut at the first occurrence of a mark, so the part before the cut has no mark in it. It is not
cut within a part that has no mark in it, if the character after this part belongs to no mark
either. -/

namespace LiteralBridge.Text

variable {mark : List Char}

theorem splitOnce_cons {c : Char} {rest : List Char} (h : ¬ mark <+: c :: rest) :
    splitOnce mark (c :: rest) =
      (splitOnce mark rest).map fun cut => (c :: cut.1, cut.2) := by
  rw [splitOnce]
  cases ha : after? mark (c :: rest) with
  | none => rfl
  | some after => exact absurd ⟨after, (after?_eq_some_iff.mp ha).symm⟩ h

theorem splitOnce_mark (hm : mark ≠ []) (after : List Char) :
    splitOnce mark (mark ++ after) = some ([], after) := by
  cases mark with
  | nil => exact absurd rfl hm
  | cons m rest =>
    have ha : after? (m :: rest) (m :: rest ++ after) = some after := after?_eq_some_iff.mpr rfl
    rw [List.cons_append] at ha ⊢
    rw [splitOnce, ha]

/-- A mark that begins in a text does not reach behind a character that is not in the mark. -/
theorem prefix_of_prefix_append {y : Char} (hy : y ∉ mark) {cs rest : List Char}
    (h : mark <+: cs ++ y :: rest) : mark <+: cs := by
  induction cs generalizing mark with
  | nil =>
    cases mark with
    | nil => exact List.nil_prefix
    | cons m more =>
      obtain ⟨rfl, -⟩ := List.cons_prefix_cons.mp h
      exact absurd List.mem_cons_self hy
  | cons c cs ih =>
    cases mark with
    | nil => exact List.nil_prefix
    | cons m more =>
      obtain ⟨rfl, hmore⟩ := List.cons_prefix_cons.mp h
      exact List.cons_prefix_cons.mpr ⟨rfl, ih (fun hm => hy (List.mem_cons_of_mem _ hm)) hmore⟩

/-- There is no cut in a part without a mark, nor at the character after it. -/
theorem splitOnce_append_cons (hm : mark ≠ []) {y : Char} (hy : y ∉ mark) {cs : List Char}
    (h : ¬ mark <:+: cs) (rest : List Char) :
    splitOnce mark (cs ++ y :: rest) =
      (splitOnce mark rest).map fun cut => (cs ++ y :: cut.1, cut.2) := by
  induction cs with
  | nil =>
    have hp : ¬ mark <+: y :: rest := fun hp =>
      hm (List.prefix_nil.mp (@prefix_of_prefix_append mark y hy [] rest hp))
    exact splitOnce_cons hp
  | cons c cs ih =>
    have hp : ¬ mark <+: (c :: cs) ++ y :: rest := fun hp =>
      h (prefix_of_prefix_append hy hp).isInfix
    rw [List.cons_append] at hp ⊢
    rw [splitOnce_cons hp, ih fun hi => h (List.infix_cons hi), Option.map_map]
    rfl

/-- There is no cut in a part without the first character of the mark. -/
theorem splitOnce_append_of_not_mem {m : Char} {mark cs : List Char} (h : m ∉ cs)
    (rest : List Char) :
    splitOnce (m :: mark) (cs ++ rest) =
      (splitOnce (m :: mark) rest).map fun cut => (cs ++ cut.1, cut.2) := by
  induction cs with
  | nil => exact Option.map_id'.symm
  | cons c cs ih =>
    have hp : ¬ (m :: mark) <+: c :: (cs ++ rest) := by
      intro hp
      obtain ⟨rfl, -⟩ := List.cons_prefix_cons.mp hp
      exact h List.mem_cons_self
    rw [List.cons_append, splitOnce_cons hp, ih fun hm => h (List.mem_cons_of_mem _ hm),
      Option.map_map]
    rfl

theorem splitOnce_singleton {m : Char} {before : List Char} (h : m ∉ before) (after : List Char) :
    splitOnce [m] (before ++ m :: after) = some (before, after) := by
  have hmark : splitOnce [m] (m :: after) = some ([], after) :=
    splitOnce_mark (List.cons_ne_nil m []) after
  rw [splitOnce_append_of_not_mem h, hmark, Option.map_some, List.append_nil]

theorem splitOnce_singleton_eq_none {m : Char} {cs : List Char} (h : m ∉ cs) :
    splitOnce [m] cs = none := by
  have hcut := @splitOnce_append_of_not_mem m [] cs h []
  rwa [List.append_nil] at hcut

/-- The cut is at the first occurrence of the mark. -/
theorem length_le_of_splitOnce {cs before after front back : List Char}
    (h : splitOnce mark cs = some (before, after)) (hc : cs = front ++ mark ++ back) :
    before.length ≤ front.length := by
  induction cs generalizing before front with
  | nil =>
    rw [splitOnce] at h
    split at h
    · obtain ⟨rfl, rfl⟩ := Prod.mk.inj (Option.some.inj h)
      exact Nat.zero_le _
    · cases h
  | cons c rest ih =>
    rw [splitOnce] at h
    split at h
    · obtain ⟨rfl, rfl⟩ := Prod.mk.inj (Option.some.inj h)
      exact Nat.zero_le _
    · next hnone =>
      obtain ⟨⟨before, after⟩, hcut, he⟩ := Option.map_eq_some_iff.mp h
      obtain ⟨rfl, rfl⟩ := Prod.mk.inj he
      cases front with
      | nil =>
        rw [List.nil_append] at hc
        rw [after?_eq_some_iff.mpr hc] at hnone
        cases hnone
      | cons d front => exact Nat.succ_le_succ (ih hcut (List.cons.inj hc).2)

/-- There is no mark before the cut. -/
theorem not_infix_of_splitOnce (hm : mark ≠ []) {cs before after : List Char}
    (h : splitOnce mark cs = some (before, after)) : ¬ mark <:+: before := by
  rintro ⟨front, back, rfl⟩
  have hc : cs = front ++ mark ++ (back ++ mark ++ after) := by
    rw [← append_of_splitOnce h]
    simp
  have hle := length_le_of_splitOnce h hc
  simp only [List.length_append] at hle
  have hpos := List.length_pos_iff.mpr hm
  omega

end LiteralBridge.Text
