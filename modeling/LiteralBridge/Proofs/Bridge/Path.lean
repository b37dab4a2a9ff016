import LiteralBridge.Bridge.Path
import LiteralBridge.Proofs.Handle
import LiteralBridge.Proofs.Literal.Delimited
import LiteralBridge.Proofs.Literal.Unique

/-! # Paths are told apart by their accessors

Every step adds a part to the accessor that shows its own end, so an accessor can be cut into the steps
that lead to it in one way only, whatever the keys of these steps are. A path leads nowhere exactly if
an attribute on it has a name that is no identifier (`follow_unambiguous`). -/

namespace LiteralBridge

open Literal (isNumeral isNumeral_of_mem_decimalInt name_append_inj renderString
  renderString_append_inj stops_cons stops_nil takeWhile_append_of_stops)
open Literal.Grammar (Stops)
open Text

namespace Text

/-! ## Positions -/

theorem decimalInt_injective : Function.Injective decimalInt := by
  have decimal_injective : Function.Injective decimal :=
    Function.LeftInverse.injective ofDecimal_decimal
  have unsigned (n : Nat) (digits : List Char) : decimal n ≠ '-' :: digits := by
    intro h
    have hd := isDigit_of_mem_decimal (n := n) (c := '-') (h ▸ List.mem_cons_self)
    exact absurd hd (by decide)
  intro i j h
  cases i with
  | ofNat n =>
    cases j with
    | ofNat m => rw [decimal_injective h]
    | negSucc m => exact absurd h (unsigned n _)
  | negSucc n =>
    cases j with
    | ofNat m => exact absurd h.symm (unsigned m _)
    | negSucc m => rw [Nat.succ.inj (decimal_injective (List.cons.inj h).2)]

/-- An integer ends where what follows it is not part of a numeral. -/
theorem decimalInt_append_inj {i j : Int} {next next' : List Char} (hs : Stops isNumeral next)
    (hs' : Stops isNumeral next') (h : decimalInt i ++ next = decimalInt j ++ next') :
    i = j ∧ next = next' := by
  have ht := congrArg (List.takeWhile isNumeral) h
  rw [takeWhile_append_of_stops (isNumeral_of_mem_decimalInt i) hs,
    takeWhile_append_of_stops (isNumeral_of_mem_decimalInt j) hs'] at ht
  rw [ht] at h
  exact ⟨decimalInt_injective ht, List.append_cancel_left h⟩

/-- An integer is not written like a string. -/
theorem decimalInt_append_ne_renderString (i : Int) (key : String) (next next' : List Char) :
    decimalInt i ++ next ≠ renderString key ++ next' := by
  intro h
  cases hd : decimalInt i with
  | nil =>
    cases i with
    | ofNat n => exact decimal_ne_nil n hd
    | negSucc n => cases hd
  | cons c digits =>
    have hc := isNumeral_of_mem_decimalInt i c (hd ▸ List.mem_cons_self)
    rw [hd] at h
    rw [(List.cons.inj h).1] at hc
    exact absurd hc (by decide)

/-! ## Names -/

/-- A letter of the ASCII alphabet, in either case. -/
def IsLetter (c : Char) : Prop :=
  'A' ≤ c ∧ c ≤ 'Z' ∨ 'a' ≤ c ∧ c ≤ 'z'

/-- A letter or an underscore, and then any number of letters, decimal digits and underscores. -/
def IsPlainName (name : String) : Prop :=
  ∃ first rest, name.toList = first :: rest ∧ (IsLetter first ∨ first = '_') ∧
    ∀ c ∈ rest, IsLetter c ∨ ('0' ≤ c ∧ c ≤ '9') ∨ c = '_'

theorem isAlpha_iff {c : Char} : c.isAlpha = true ↔ IsLetter c := by
  have upper : c.isUpper = true ↔ 'A' ≤ c ∧ c ≤ 'Z' := decide_eq_true_iff
  have lower : c.isLower = true ↔ 'a' ≤ c ∧ c ≤ 'z' :=
    Bool.and_eq_true_iff.trans (and_congr decide_eq_true_iff decide_eq_true_iff)
  exact Bool.or_eq_true_iff.trans (or_congr upper lower)

theorem isDigit_iff {c : Char} : c.isDigit = true ↔ '0' ≤ c ∧ c ≤ '9' := by
  simp only [Char.isDigit, Char.le_def, Bool.and_eq_true, decide_eq_true_eq, ge_iff_le]

theorem isIdentifier_iff {name : String} : isIdentifier name = true ↔ IsPlainName name := by
  rw [isIdentifier, IsPlainName]
  cases name.toList with
  | nil => simp [isName]
  | cons first rest =>
    simp [isName, isNameStart, isNameRest, Char.isAlphanum, isAlpha_iff, isDigit_iff, or_assoc]

end Text

/-! ## Steps -/

namespace Step

/-- A step that can be taken: if it is to an attribute, the attribute has a plain name. -/
def IsValid : Step → Prop
  | field name => IsPlainName name
  | item _ | entry _ => True

/-- What a step adds to the accessor. -/
def suffix : Step → List Char
  | field name => '.' :: name.toList
  | item position => '[' :: (decimalInt position ++ [']'])
  | entry key => '[' :: (renderString key ++ [']'])

/-- What follows the name of an attribute begins with a mark. -/
theorem stops_flatMap_suffix (steps : List Step) : Stops isNameRest (steps.flatMap suffix) := by
  cases steps with
  | nil => exact stops_nil _
  | cons step rest => cases step <;> exact stops_cons.mpr (by decide)

/-- A step, and the place where it ends, can be told from the text. -/
theorem suffix_append_inj {step step' : Step} (hv : step.IsValid) (hv' : step'.IsValid)
    {next next' : List Char} (hs : Stops isNameRest next) (hs' : Stops isNameRest next')
    (h : step.suffix ++ next = step'.suffix ++ next') : step = step' ∧ next = next' := by
  have closing (next : List Char) : Stops isNumeral (']' :: next) := stops_cons.mpr (by decide)
  have inside {key key' : List Char}
      (h : '[' :: (key ++ [']']) ++ next = '[' :: (key' ++ [']']) ++ next') :
      key ++ ']' :: next = key' ++ ']' :: next' := by
    simpa using h
  cases step with
  | field name =>
    cases step' with
    | field name' =>
      obtain ⟨rfl, hn⟩ := name_append_inj (isIdentifier_iff.mpr hv) (isIdentifier_iff.mpr hv') hs hs'
        (List.cons.inj h).2
      exact ⟨rfl, hn⟩
    | item position' => exact absurd (List.cons.inj h).1 (by decide)
    | entry key' => exact absurd (List.cons.inj h).1 (by decide)
  | item position =>
    cases step' with
    | field name' => exact absurd (List.cons.inj h).1 (by decide)
    | item position' =>
      obtain ⟨rfl, hn⟩ := decimalInt_append_inj (closing next) (closing next') (inside h)
      exact ⟨rfl, (List.cons.inj hn).2⟩
    | entry key' =>
      exact absurd (inside h) (decimalInt_append_ne_renderString position key' _ _)
  | entry key =>
    cases step' with
    | field name' => exact absurd (List.cons.inj h).1 (by decide)
    | item position' =>
      exact absurd (inside h).symm (decimalInt_append_ne_renderString position' key _ _)
    | entry key' =>
      obtain ⟨rfl, hn⟩ := renderString_append_inj (inside h)
      exact ⟨rfl, (List.cons.inj hn).2⟩

/-- The steps can be told from the text of all of them. -/
theorem flatMap_suffix_inj {steps steps' : List Step} (hv : ∀ step ∈ steps, step.IsValid)
    (hv' : ∀ step ∈ steps', step.IsValid) (h : steps.flatMap suffix = steps'.flatMap suffix) :
    steps = steps' := by
  have suffix_ne_nil (step : Step) : step.suffix ≠ [] := by
    cases step <;> exact List.cons_ne_nil _ _
  induction steps generalizing steps' with
  | nil =>
    cases steps' with
    | nil => rfl
    | cons step' rest' =>
      rw [List.flatMap_cons] at h
      exact absurd (List.append_eq_nil_iff.mp h.symm).1 (suffix_ne_nil step')
  | cons step rest ih =>
    cases steps' with
    | nil =>
      rw [List.flatMap_cons] at h
      exact absurd (List.append_eq_nil_iff.mp h).1 (suffix_ne_nil step)
    | cons step' rest' =>
      obtain ⟨hfirst, hrest⟩ := List.forall_mem_cons.mp hv
      obtain ⟨hfirst', hrest'⟩ := List.forall_mem_cons.mp hv'
      rw [List.flatMap_cons, List.flatMap_cons] at h
      obtain ⟨rfl, hmore⟩ := suffix_append_inj hfirst hfirst' (stops_flatMap_suffix rest)
        (stops_flatMap_suffix rest') h
      rw [ih hrest hrest' hmore]

end Step

/-! ## Paths -/

namespace Handle

open Step

theorem step_eq_ok {h target : Handle} {step : Step} :
    h.step step = .ok target ↔
      step.IsValid ∧ target.accessor.toList = h.accessor.toList ++ step.suffix := by
  obtain ⟨accessor⟩ := target
  cases step with
  | field name =>
    have hchild := @child_eq_ok h ⟨accessor⟩ name
    rw [Handle.step, hchild, isIdentifier_iff, Handle.mk.injEq, ← String.toList_inj, toList_path]
    exact Iff.rfl
  | item position =>
    simp [Handle.step, IsValid, suffix, index, subscript, ← String.toList_inj, eq_comm]
  | entry key =>
    simp [Handle.step, IsValid, suffix, Handle.key, subscript, ← String.toList_inj, eq_comm]

theorem exists_step_eq_ok (h : Handle) {step : Step} (hv : step.IsValid) :
    ∃ target, h.step step = .ok target := by
  refine ⟨⟨String.ofList (h.accessor.toList ++ step.suffix)⟩, step_eq_ok.mpr ⟨hv, ?_⟩⟩
  rw [String.toList_ofList]

theorem step_eq_error {h : Handle} {step : Step} {e : EncodeError} :
    h.step step = .error e ↔
      ∃ name, step = .field name ∧ ¬ IsPlainName name ∧ e = .notIdentifier name := by
  cases step with
  | field name =>
    rw [Handle.step, child, child?]
    by_cases hn : IsPlainName name
    · simp [isIdentifier_iff.mpr hn, hn]
    · simp [mt isIdentifier_iff.mp hn, hn, eq_comm]
  | item position => simp [Handle.step]
  | entry key => simp [Handle.step]

/-- A path that can be followed composes the accessor of the object at its end. -/
theorem follow_eq_ok {h target : Handle} {steps : List Step} :
    h.follow steps = .ok target ↔ (∀ step ∈ steps, step.IsValid) ∧
      target.accessor.toList = h.accessor.toList ++ steps.flatMap suffix := by
  induction steps generalizing h with
  | nil =>
    obtain ⟨accessor⟩ := target
    obtain ⟨accessor'⟩ := h
    simp [follow, ← String.toList_inj, eq_comm]
  | cons step rest ih =>
    rw [follow, Literal.bind_eq_ok, List.forall_mem_cons, List.flatMap_cons, ← List.append_assoc]
    constructor
    · rintro ⟨next, hstep, hfollow⟩
      obtain ⟨hv, ha⟩ := step_eq_ok.mp hstep
      obtain ⟨hrest, ht⟩ := ih.mp hfollow
      exact ⟨⟨hv, hrest⟩, ha ▸ ht⟩
    · rintro ⟨⟨hv, hrest⟩, ht⟩
      obtain ⟨next, hstep⟩ := exists_step_eq_ok h hv
      exact ⟨next, hstep, ih.mpr ⟨hrest, (step_eq_ok.mp hstep).2 ▸ ht⟩⟩

/-- The first attribute without a plain name ends the way. -/
theorem follow_eq_error {h : Handle} {steps : List Step} {e : EncodeError} :
    h.follow steps = .error e ↔ ∃ front name back, steps = front ++ .field name :: back ∧
      (∀ step ∈ front, step.IsValid) ∧ ¬ IsPlainName name ∧ e = .notIdentifier name := by
  induction steps generalizing h with
  | nil => simp [follow]
  | cons step rest ih =>
    rw [follow, Literal.bind_eq_error]
    constructor
    · rintro (hstep | ⟨next, hstep, hfollow⟩)
      · obtain ⟨name, rfl, hn, he⟩ := step_eq_error.mp hstep
        exact ⟨[], name, rest, rfl, List.forall_mem_nil _, hn, he⟩
      · obtain ⟨front, name, back, rfl, hfront, hn, he⟩ := ih.mp hfollow
        have hv : step.IsValid := (step_eq_ok.mp hstep).1
        exact ⟨step :: front, name, back, rfl, List.forall_mem_cons.mpr ⟨hv, hfront⟩, hn, he⟩
    · rintro ⟨front, name, back, hpath, hfront, hn, he⟩
      cases front with
      | nil =>
        obtain ⟨rfl, rfl⟩ := List.cons.inj hpath
        exact .inl (step_eq_error.mpr ⟨name, rfl, hn, he⟩)
      | cons first front =>
        obtain ⟨rfl, rfl⟩ := List.cons.inj hpath
        obtain ⟨hv, hfront⟩ := List.forall_mem_cons.mp hfront
        obtain ⟨next, hstep⟩ := exists_step_eq_ok h hv
        exact .inr ⟨next, hstep, ih.mpr ⟨front, name, back, rfl, hfront, hn, he⟩⟩

/-- Paths from one object that end at the same accessor are the same step by step, and a path cannot be
followed exactly if there is an attribute on it whose name is not plain; the first such name is
reported. -/
theorem follow_unambiguous (root : Handle) :
    (∀ steps steps' target target', root.follow steps = .ok target →
      root.follow steps' = .ok target' → target.accessor = target'.accessor → steps = steps') ∧
    ∀ steps e, root.follow steps = .error e ↔
      ∃ front name back, steps = front ++ .field name :: back ∧
        (∀ step ∈ front, step.IsValid) ∧ ¬ IsPlainName name ∧ e = .notIdentifier name := by
  constructor
  · intro steps steps' target target' h h' ha
    obtain ⟨hv, ht⟩ := follow_eq_ok.mp h
    obtain ⟨hv', ht'⟩ := follow_eq_ok.mp h'
    rw [ha, ht'] at ht
    exact flatMap_suffix_inj hv hv' (List.append_cancel_left ht).symm
  · intro steps e
    exact follow_eq_error

/-- Two keys, and one key that is written like both of them with their brackets, lead to different
accessors. Behind a position an attribute cannot have a bracket in its name. -/
theorem follow_unambiguous_brackets :
    let root : Handle := ⟨"a"⟩
    let apart : Handle := ⟨"a[\"x\"][\"y\"]"⟩
    let quoted : Handle := ⟨"a[\"x\\\"][\\\"y\"]"⟩
    root.follow [.entry "x", .entry "y"] = .ok apart ∧
      root.follow [.entry "x\"][\"y"] = .ok quoted ∧ apart.accessor ≠ quoted.accessor ∧
      root.follow [.item (-1), .field "y]", .field "z"] = .error (.notIdentifier "y]") := by
  intro root apart quoted
  have happart : root.follow [.entry "x", .entry "y"] = .ok apart := by rfl
  have hquoted : root.follow [.entry "x\"][\"y"] = .ok quoted := by rfl
  have hname : ¬ IsPlainName "y]" := by
    rw [← isIdentifier_iff]
    decide
  obtain ⟨hinj, herror⟩ := follow_unambiguous root
  refine ⟨happart, hquoted, fun ha => ?_, (herror _ _).mpr ⟨[.item (-1)], _, _, rfl, ?_, hname, rfl⟩⟩
  · exact absurd (hinj _ _ _ _ happart hquoted ha) (by decide)
  · exact List.forall_mem_singleton.mpr trivial

end Handle

end LiteralBridge
