import LiteralBridge.Proofs.Kind.Tree
import LiteralBridge.Proofs.Literal.Endings
import LiteralBridge.Proofs.Text.Places
import LiteralBridge.Proofs.Text.Trimming
import LiteralBridge.Proofs.Value.Conversion

/-! # Where a text cannot be decoded

The place that an error names is a place of the text, and it is between two characters, with one
exception: the place of a line break in an accessor is counted from where the accessor begins, so the white
space before the accessor is missing from it (`decode_error_place`). -/

namespace LiteralBridge

open Text
open String.Pos.Raw (IsValid)

/-! ## What the converter reports -/

/-- The literal was read, but has not the kind. -/
def Mismatch.IsOfLiteral : Mismatch → Prop
  | notLiteral _ | emptyAccessor | noObject | multilineAccessor => False
  | _ => True

namespace Literal

/-- If a conversion fails, its reason lies in the literal. -/
def Reports {α : Type} (r : Except Mismatch α) : Prop :=
  ∀ reason, r = .error reason → reason.IsOfLiteral

namespace Reports

variable {α β : Type}

theorem ok (a : α) : Reports (.ok a) :=
  fun _ h => nomatch h

theorem fail {reason : Mismatch} (h : reason.IsOfLiteral) : Reports (.error reason : Except Mismatch α) :=
  fun _ he => Except.error.inj he ▸ h

theorem bind {r : Except Mismatch α} {f : α → Except Mismatch β} (h : Reports r)
    (hf : ∀ a, Reports (f a)) : Reports (r >>= f) := by
  cases r with
  | ok a => exact hf a
  | error reason => exact fail (h reason rfl)

/-- A conversion whose result is put into a value. -/
theorem bind_ok {r : Except Mismatch α} (h : Reports r) (f : α → β) :
    Reports (r >>= fun a => .ok (f a)) :=
  h.bind fun a => ok (f a)

end Reports

section Containers

variable {converted : Literal → Except Mismatch Value}

theorem reports_convertAll {items : List Literal} (h : ∀ item ∈ items, Reports (converted item)) :
    Reports (convertAll converted items) := by
  induction items with
  | nil => exact .ok []
  | cons item rest ih =>
    obtain ⟨hitem, hrest⟩ := List.forall_mem_cons.mp h
    exact hitem.bind fun _ => (ih hrest).bind_ok _

theorem reports_convertEntries {entries : List (Literal × Literal)}
    (h : ∀ entry ∈ entries, Reports (converted entry.2)) :
    Reports (convertEntries converted entries) := by
  induction entries with
  | nil => exact .ok []
  | cons entry rest ih =>
    obtain ⟨hentry, hrest⟩ := List.forall_mem_cons.mp h
    obtain ⟨key, value⟩ := entry
    cases key with
    | str key => exact hentry.bind fun _ => (ih hrest).bind_ok _
    | _ => exact .fail trivial

theorem reports_convertRows (h : ∀ item, Reports (converted item)) (number : Nat)
    (width? : Option Nat) (rows : List Literal) :
    Reports (convertRows converted number width? rows) := by
  induction rows generalizing number width? with
  | nil => exact .ok []
  | cons row rest ih =>
    cases row with
    | list cells =>
      rw [convertRows]
      split
      · exact (reports_convertAll fun item _ => h item).bind fun _ => (ih _ _).bind_ok _
      · exact .fail trivial
    | _ => exact .fail trivial

theorem reports_orNull (h : ∀ item, Reports (converted item)) (item : Literal) :
    Reports (orNull converted item) := by
  cases item with
  | none => exact .ok _
  | _ => exact h _

theorem reports_toNameSet (items : List Literal) : Reports (toNameSet items) := by
  have names : Reports (toNames items) := by
    induction items with
    | nil => exact .ok []
    | cons item rest ih =>
      cases item with
      | str s => exact ih.bind_ok _
      | _ => exact .fail trivial
  exact names.bind_ok _

end Containers

section Kinds

variable (range : IntegerRange)

theorem reports_toInteger (i : Int) : Reports (toInteger range i) := by
  rw [toInteger]
  split
  · exact .ok _
  · exact .fail trivial

theorem reports_toAny (literal : Literal) : Reports (literal.toAny range) := by
  induction literal with
  | none | bool _ | float _ | str _ => exact .ok _
  | int i => exact reports_toInteger range i
  | list items ih | tuple items ih =>
    rw [toAny, toAnyAll_eq]
    exact (reports_convertAll ih).bind_ok _
  | set items _ => exact reports_toNameSet items
  | dict entries ih =>
    rw [toAny, toAnyEntries_eq]
    exact (reports_convertEntries fun entry he => (ih entry he).2).bind_ok _

theorem reports_convertEach {kinds : List Kind}
    (h : ∀ kind ∈ kinds, ∀ literal, Reports (convert range kind literal)) (items : List Literal) :
    Reports (convertEach range kinds items) := by
  induction kinds generalizing items with
  | nil => cases items <;> exact .ok []
  | cons kind rest ih =>
    obtain ⟨hkind, hrest⟩ := List.forall_mem_cons.mp h
    cases items with
    | nil => exact .ok []
    | cons item items => exact (hkind item).bind fun _ => (ih hrest items).bind_ok _

/-- Whatever the converter reports is about the literal, and not about an accessor. -/
theorem reports_convert (kind : Kind) (literal : Literal) : Reports (literal.convert range kind) := by
  induction kind generalizing literal with
  | any =>
    rw [convert]
    exact reports_toAny range literal
  | null | boolean | string | enum =>
    cases literal <;> first | exact .ok _ | exact .fail trivial
  | integer =>
    cases literal with
    | int i => exact reports_toInteger range i
    | _ => exact .fail trivial
  | float =>
    cases literal with
    | float x => exact .ok _
    | int i =>
      rw [convert]
      split
      · exact .ok _
      · exact .fail trivial
    | _ => exact .fail trivial
  | enumSet =>
    cases literal with
    | set items | list items | tuple items => exact reports_toNameSet items
    | _ => exact .fail trivial
  | array item ih =>
    cases literal with
    | list items | tuple items =>
      exact (reports_convertAll fun item _ => reports_orNull ih item).bind_ok _
    | _ => exact .fail trivial
  | matrix item ih =>
    cases literal with
    | list rows => exact (reports_convertRows (reports_orNull ih) 0 Option.none rows).bind_ok _
    | _ => exact .fail trivial
  | tuple kinds ih =>
    cases literal with
    | list items | tuple items =>
      rw [convert]
      split
      · exact (reports_convertEach range ih items).bind_ok _
      · exact .fail trivial
    | _ => exact .fail trivial
  | dict value ih =>
    cases literal with
    | dict entries => exact (reports_convertEntries fun entry _ => reports_orNull ih entry.2).bind_ok _
    | _ => exact .fail trivial
  | object => cases literal <;> exact .fail trivial

end Kinds

end Literal

/-! ## Accessors -/

/-- The number of bytes of the white space that a text begins with. -/
def leadingBlank (text : String) : Nat :=
  byteLength (text.toList.takeWhile isBlank)

/-- At the place in the text stands the first line break of the accessor that the text is. -/
def LineBreakAt (text : String) (place : Nat) : Prop :=
  ∃ front c rest, trim text.toList = front ++ c :: rest ∧
    (∀ d ∈ front, isLineBreak d = false) ∧ isLineBreak c = true ∧
    place = leadingBlank text + byteLength front ∧ IsValid text ⟨place⟩ ∧
    String.Pos.Raw.get? text ⟨place⟩ = some c

/-- The part of an accessor before its first line break. -/
def firstLine (cs : List Char) : List Char :=
  cs.takeWhile fun c => !isLineBreak c

theorem firstLine_append {front rest : List Char} {c : Char}
    (hf : ∀ d ∈ front, isLineBreak d = false) (hc : isLineBreak c = true) :
    firstLine (front ++ c :: rest) = front :=
  Literal.takeWhile_append_of_stops (fun d hd => by rw [hf d hd, Bool.not_false])
    (Literal.stops_cons.mpr (by rw [hc, Bool.not_true]))

theorem exists_firstLine {cs : List Char} (h : cs.any isLineBreak = true) :
    ∃ c rest, cs = firstLine cs ++ c :: rest ∧ isLineBreak c = true := by
  induction cs with
  | nil => cases h
  | cons c rest ih =>
    by_cases hc : isLineBreak c = true
    · exact ⟨c, rest, by simp [firstLine, hc], hc⟩
    · rw [List.any_cons, Bool.eq_false_of_not_eq_true hc, Bool.false_or] at h
      obtain ⟨d, after, hrest, hd⟩ := ih h
      refine ⟨d, after, ?_, hd⟩
      rw [firstLine, List.takeWhile_cons_of_pos (by simp [hc]), List.cons_append, ← firstLine,
        ← hrest]

theorem LineBreakAt.isValid {text : String} {place : Nat} (h : LineBreakAt text place) :
    IsValid text ⟨place⟩ := by
  obtain ⟨_, _, _, -, -, -, -, hv, -⟩ := h
  exact hv

theorem LineBreakAt.eq {text : String} {place : Nat} (h : LineBreakAt text place) :
    place = leadingBlank text + byteLength (firstLine (trim text.toList)) := by
  obtain ⟨front, c, rest, ht, hf, hc, hp, -⟩ := h
  rw [ht, firstLine_append hf hc]
  exact hp

/-- The first line break of an accessor stands behind the white space before the accessor and behind the
first line of the accessor. -/
theorem lineBreakAt_of_any {text : String} (h : (trim text.toList).any isLineBreak = true) :
    LineBreakAt text (leadingBlank text + byteLength (firstLine (trim text.toList))) := by
  obtain ⟨c, rest, ht, hc⟩ := exists_firstLine h
  have hf : ∀ d ∈ firstLine (trim text.toList), isLineBreak d = false := by
    intro d hd
    simpa using List.all_eq_true.mp List.all_takeWhile d hd
  have htext := takeWhile_append_trim text.toList
  rw [ht, List.append_assoc, ← List.append_assoc, List.cons_append] at htext
  have hplace : leadingBlank text + byteLength (firstLine (trim text.toList)) =
      byteLength (text.toList.takeWhile isBlank ++ firstLine (trim text.toList)) :=
    (byteLength_append _ _).symm
  refine ⟨_, c, rest, ht, hf, hc, rfl, ?_, ?_⟩
  · rw [hplace]
    exact isValid_byteLength htext.symm
  · rw [hplace, get?_byteLength htext.symm, List.head?_cons]

theorem decodeHandle_eq_error {text : String} {e : DecodeError} (h : decodeHandle text = .error e) :
    e.text = text ∧
      (e.offset = 0 ∧ e.reason ≠ .multilineAccessor ∨
        (trim text.toList).any isLineBreak = true ∧ e.reason = .multilineAccessor ∧
          e.offset = byteLength (firstLine (trim text.toList))) := by
  unfold decodeHandle at h
  dsimp only at h
  split at h
  · exact Except.error.inj h ▸ ⟨rfl, .inl ⟨rfl, nofun⟩⟩
  split at h
  · exact Except.error.inj h ▸ ⟨rfl, .inl ⟨rfl, nofun⟩⟩
  split at h
  · next hb => exact Except.error.inj h ▸ ⟨rfl, .inr ⟨hb, rfl, rfl⟩⟩
  · cases h

/-! ## Texts -/

/-- A text from which no object is expected is no literal, or its literal has not the kind. -/
theorem decode_eq_error {config : Config} {kind : Kind} (hk : kind ≠ .object) {text : String}
    {e : DecodeError} (h : decode config kind text = .error e) :
    (∃ found, Literal.parse config.maxDepth text = .error found ∧
      e = ⟨text, kind, found.offset, .notLiteral found.reason⟩) ∨
    ∃ (literal : Literal) (reason : Mismatch),
      literal.convert config.integerRange kind = .error reason ∧ e = ⟨text, kind, 0, reason⟩ := by
  unfold decode at h
  split at h
  · exact absurd rfl hk
  · cases hp : Literal.parse config.maxDepth text with
    | error found =>
      rw [hp] at h
      exact .inl ⟨found, rfl, (Except.error.inj h).symm⟩
    | ok literal =>
      cases hc : literal.convert config.integerRange kind with
      | error reason =>
        simp only [hp, hc] at h
        exact .inr ⟨literal, reason, hc, (Except.error.inj h).symm⟩
      | ok v => simp [hp, hc] at h

theorem decode_object_eq_error {config : Config} {text : String} {e : DecodeError}
    (h : decode config .object text = .error e) : decodeHandle text = .error e := by
  rw [decode] at h
  split at h
  · cases h
  · rcases Literal.bind_eq_error.mp h with hd | ⟨handle, -, h⟩
    · exact hd
    · cases h

/-- Where no accessor is at fault, the place of an error is one between two characters. -/
theorem isValid_of_decode_eq_error {config : Config} {kind : Kind} (hk : kind ≠ .object)
    {text : String} {e : DecodeError} (h : decode config kind text = .error e) :
    e.text = text ∧ IsValid text ⟨e.offset⟩ ∧ e.reason ≠ .multilineAccessor := by
  rcases decode_eq_error hk h with ⟨found, hp, rfl⟩ | ⟨literal, reason, hc, rfl⟩
  · obtain ⟨rest, hs, ho, -⟩ := Literal.parse_eq_error hp
    refine ⟨rfl, ?_, nofun⟩
    rw [ho]
    exact isValid_offsetOf hs
  · refine ⟨rfl, isValid_zero text, ?_⟩
    rintro rfl
    exact Literal.reports_convert _ kind literal _ hc

/-- An error of decoding has the text as it was received, and a place of it. That is a place between two
characters, unless it is that of a line break in an accessor behind white space. A line break in an
accessor stands where the white space before the accessor and the place of the error add up to, so it
stands at the place of the error only if there is no such white space. -/
theorem decode_error_place {config : Config} {kind : Kind} {text : String} {e : DecodeError}
    (h : decode config kind text = .error e ∨ decodeHandle text = .error e) :
    e.text = text ∧ e.offset ≤ text.utf8ByteSize ∧
      (IsValid text ⟨e.offset⟩ ∨ e.reason = .multilineAccessor ∧ leadingBlank text ≠ 0) ∧
      (e.reason = .multilineAccessor →
        LineBreakAt text (leadingBlank text + e.offset) ∧
          (LineBreakAt text e.offset ↔ leadingBlank text = 0)) := by
  by_cases hd : decodeHandle text = .error e
  case neg =>
    have hkind : kind ≠ .object := by
      rintro rfl
      exact hd (decode_object_eq_error (h.resolve_right hd))
    obtain ⟨ht, hv, hr⟩ := isValid_of_decode_eq_error hkind (h.resolve_right hd)
    exact ⟨ht, hv.le_rawEndPos, .inl hv, fun hm => absurd hm hr⟩
  obtain ⟨ht, ⟨ho, hr⟩ | ⟨hb, hr, ho⟩⟩ := decodeHandle_eq_error hd
  · have hv : IsValid text ⟨e.offset⟩ := ho ▸ isValid_zero text
    exact ⟨ht, hv.le_rawEndPos, .inl hv, fun hm => absurd hm hr⟩
  have hbreak : LineBreakAt text (leadingBlank text + e.offset) := ho ▸ lineBreakAt_of_any hb
  have hv := hbreak.isValid
  have hiff : LineBreakAt text e.offset ↔ leadingBlank text = 0 := by
    constructor
    · intro hat
      have heq := hat.eq
      rw [← ho] at heq
      omega
    · intro hz
      rwa [hz, Nat.zero_add] at hbreak
  refine ⟨ht, Nat.le_trans (Nat.le_add_left _ _) hv.le_rawEndPos, ?_, fun _ => ⟨hbreak, hiff⟩⟩
  by_cases hz : leadingBlank text = 0
  · rw [hz, Nat.zero_add] at hv
    exact .inl hv
  · exact .inr ⟨hr, hz⟩

/-- A name that is not known, behind white space of two bytes, and an accessor of two lines behind white
space of three bytes. -/
theorem decode_error_place_behind_blanks :
    let unknown := "[\u00a0nil]"
    let lines := "\u3000ab\r\nc"
    let found : DecodeError := ⟨unknown, .any, 3, .notLiteral (.unknownName "nil")⟩
    let broken : DecodeError := ⟨lines, .object, 2, .multilineAccessor⟩
    decode {} .any unknown = .error found ∧ IsValid unknown ⟨3⟩ ∧
      decode {} .object lines = .error broken ∧ LineBreakAt lines 5 ∧ ¬ LineBreakAt lines 2 := by
  have hbroken : decode {} .object "\u3000ab\r\nc" =
      .error ⟨"\u3000ab\r\nc", .object, 2, .multilineAccessor⟩ := by rfl
  intro unknown lines found broken
  have hfound : decode {} .any unknown = .error found := by
    have hp : Literal.parse ({} : Config).maxDepth unknown = .error ⟨3, .unknownName "nil"⟩ := by cbv
    simp only [decode, hp, found]
  have hblank : leadingBlank lines = 3 := by decide
  obtain ⟨-, -, hvalid, -⟩ := decode_error_place (.inl hfound)
  obtain ⟨hplace, hiff⟩ := (decode_error_place (.inl hbroken)).2.2.2 rfl
  rw [hblank] at hplace hiff
  refine ⟨hfound, hvalid.resolve_right ?_, hbroken, hplace, ?_⟩
  · rintro ⟨hr, -⟩
    cases hr
  · intro hat
    cases hiff.mp hat

/-- The place that is named for the line break behind the first `a` is inside of the character before
it. -/
theorem decodeHandle_place_in_character :
    let text := "\u3000a\nb"
    decodeHandle text = .error ⟨text, .object, 1, .multilineAccessor⟩ ∧ ¬ IsValid text ⟨1⟩ ∧
      String.Pos.Raw.get? text ⟨1⟩ = none ∧ String.Pos.Raw.get? text ⟨4⟩ = some '\n' := by
  have hplace : decodeHandle "\u3000a\nb" =
      .error ⟨"\u3000a\nb", .object, 1, .multilineAccessor⟩ := by rfl
  exact ⟨hplace, by decide, by decide, by decide⟩

end LiteralBridge
