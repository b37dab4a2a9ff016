import Mathlib
import LiteralBridge.Proofs.Text.Trimming
import LiteralBridge.Proofs.Value.Conversion
import LiteralBridge.Proofs.Value.Kinds
import LiteralBridge.Proofs.Value.Tables
import LiteralBridge.Proofs.Value.Writing

/-! # What is decoded has the expected kind

A value that was decoded has the kind that was asked for, its integers are in the range and its
matrices are filled, and it is converted from the literal that the text is (`decode_sound`). An object
is decoded only as the kind of objects, and its accessor is a line. -/

namespace LiteralBridge

open Literal (Converts missing)

/-- What a value that was read can be, apart from what it holds. -/
def Value.IsRead (range : IntegerRange) : Value → Prop
  | integer i => range.contains i = true
  | matrix m => FillsShape m
  | undefined | handle _ | function _ => False
  | _ => True

/-! ## Values of rules -/

namespace Literal.Converts

open Value

variable {range : IntegerRange} {kind : Kind} {literal : Literal} {v : Value}

/-- What holds of a missing item and of any other holds of every item. -/
theorem of_ne_missing {p : Literal × Value → Prop} {pair : Literal × Value} (hm : p missing)
    (h : pair ≠ missing → p pair) : p pair := by
  by_cases hne : pair = missing
  · exact hne ▸ hm
  · exact h hne

theorem ne_missing_of_isNull_eq_false {pair : Literal × Value} (h : pair.2.isNull = false) :
    pair ≠ missing := by
  rintro rfl
  simp [isNull] at h

theorem hasKind (h : Converts range kind literal v) : v.HasKind kind := by
  induction h with
  | null => exact .null
  | boolean => exact .boolean
  | integer => exact .integer
  | float => exact .float
  | wholeFloat => exact .float
  | string => exact .string
  | enum => exact .enum
  | enumSet => exact .enumSet
  | array hs h ih =>
    refine .array (List.forall_mem_map.mpr fun pair hp hn => ?_)
    exact ih pair hp (ne_missing_of_isNull_eq_false hn)
  | matrix hw he h ih =>
    refine .matrix (List.forall_mem_map.mpr fun pair hp hn => ?_)
    obtain ⟨row, hr, hp⟩ := List.mem_flatten.mp hp
    exact ih row hr pair hp (ne_missing_of_isNull_eq_false hn)
  | tuple hs h ih =>
    refine .tuple (by simp) fun i item kind hi hk => ?_
    rw [List.getElem?_map] at hi hk
    obtain ⟨triple, ht, rfl⟩ := Option.map_eq_some_iff.mp hi
    rw [ht] at hk
    obtain rfl := Option.some.inj hk
    exact ih triple (List.mem_of_getElem? ht)
  | dict h ih =>
    refine .dict (Entries.forall_mem_ofList (List.forall_mem_map.mpr fun entry he hn => ?_))
    exact ih entry he (ne_missing_of_isNull_eq_false hn)
  | anyNull => exact .anyNull
  | anyBoolean => exact .anyBoolean
  | anyInteger => exact .anyInteger
  | anyFloat => exact .anyFloat
  | anyString => exact .anyString
  | anyEnumSet => exact .anyEnumSet
  | anyArray h ih => exact .anyArray (List.forall_mem_map.mpr ih)
  | anyTuple h ih => exact .anyTuple (List.forall_mem_map.mpr ih)
  | anyDict h ih =>
    exact .anyDict (Entries.forall_mem_ofList (List.forall_mem_map.mpr ih))

/-- The rows of a matrix fill its shape. -/
theorem fillsShape_of_rows {rows : List (List (Literal × Value))} {cols : Nat}
    (hw : ∀ row ∈ rows, row.length = cols) (he : rows = [] → cols = 0) :
    FillsShape ⟨rows.length, cols, rows.flatten.map Prod.snd⟩ := by
  have hlen : rows.flatten.length = rows.length * cols := by
    rw [List.length_flatten, List.map_congr_left hw, List.map_const', List.sum_replicate_nat]
  exact ⟨by rw [List.length_map, hlen], fun hr => he (List.length_eq_zero_iff.mp hr)⟩

theorem everywhere_isRead (h : Converts range kind literal v) : v.Everywhere (IsRead range) := by
  have item {pair : Literal × Value}
      (ih : pair ≠ missing → pair.2.Everywhere (IsRead range)) : pair.2.Everywhere (IsRead range) :=
    of_ne_missing (p := fun pair => pair.2.Everywhere (IsRead range)) trivial ih
  induction h with
  | null => trivial
  | boolean => trivial
  | integer hi => exact hi
  | float => trivial
  | wholeFloat => trivial
  | string => trivial
  | enum => trivial
  | enumSet => trivial
  | array hs h ih =>
    exact ⟨trivial, everywhereAll_iff.mpr (List.forall_mem_map.mpr fun pair hp => item (ih pair hp))⟩
  | matrix hw he h ih =>
    refine ⟨fillsShape_of_rows hw he, everywhereAll_iff.mpr (List.forall_mem_map.mpr ?_)⟩
    intro pair hp
    obtain ⟨row, hr, hp⟩ := List.mem_flatten.mp hp
    exact item (ih row hr pair hp)
  | tuple hs h ih => exact ⟨trivial, everywhereAll_iff.mpr (List.forall_mem_map.mpr ih)⟩
  | dict h ih =>
    refine ⟨trivial, everywhereEntries_iff.mpr (Entries.forall_mem_ofList ?_)⟩
    exact List.forall_mem_map.mpr fun entry he => item (ih entry he)
  | anyNull => trivial
  | anyBoolean => trivial
  | anyInteger hi => exact hi
  | anyFloat => trivial
  | anyString => trivial
  | anyEnumSet => trivial
  | anyArray h ih => exact ⟨trivial, everywhereAll_iff.mpr (List.forall_mem_map.mpr ih)⟩
  | anyTuple h ih => exact ⟨trivial, everywhereAll_iff.mpr (List.forall_mem_map.mpr ih)⟩
  | anyDict h ih =>
    refine ⟨trivial, everywhereEntries_iff.mpr (Entries.forall_mem_ofList ?_)⟩
    exact List.forall_mem_map.mpr ih

end Literal.Converts

/-! ## Objects -/

/-- The accessor is a line with no white space around it, and not the word for a missing object. -/
structure Handle.IsLine (h : Handle) : Prop where
  ne_empty : h.accessor ≠ ""
  ne_none : h.accessor ≠ "None"
  head : ∀ c ∈ h.accessor.toList.head?, Text.isBlank c = false
  last : ∀ c ∈ h.accessor.toList.getLast?, Text.isBlank c = false
  line : ∀ c ∈ h.accessor.toList, c ≠ '\n' ∧ c ≠ '\r'

/-- The accessor of an object is the text without the white space around it. -/
theorem decodeHandle_eq_ok {text : String} {h : Handle} :
    decodeHandle text = .ok h ↔ Text.trim text.toList = h.accessor.toList ∧ h.IsLine := by
  constructor
  · intro hd
    unfold decodeHandle at hd
    by_cases he : (Text.trim text.toList).isEmpty = true
    · simp [he] at hd
    by_cases hn : Text.trim text.toList = Literal.renderNone
    · simp only [if_neg he, if_pos hn, reduceCtorEq] at hd
    by_cases hb : (Text.trim text.toList).any Text.isLineBreak = true
    · simp [he, hn, hb] at hd
    simp only [if_neg he, if_neg hn, if_neg hb, Except.ok.injEq] at hd
    subst hd
    refine ⟨String.toList_ofList.symm, ?_, ?_, ?_, ?_, ?_⟩
    · intro h
      exact he (by simpa using h)
    · intro h
      have hl := congrArg String.toList h
      rw [String.toList_ofList] at hl
      exact hn hl
    · rw [String.toList_ofList]
      exact Text.stops_trim _
    · rw [String.toList_ofList]
      exact Text.getLast?_trim _
    · rw [String.toList_ofList]
      intro c hc
      simpa [Text.isLineBreak] using fun hbreak => hb (List.any_eq_true.mpr ⟨c, hc, hbreak⟩)
  · rintro ⟨ht, hl⟩
    have he : ¬ (Text.trim text.toList).isEmpty = true := by
      simpa [ht] using hl.ne_empty
    have hn : Text.trim text.toList ≠ Literal.renderNone := by
      rw [ht]
      exact fun h => hl.ne_none (String.toList_injective h)
    have hb : ¬ (Text.trim text.toList).any Text.isLineBreak = true := by
      rw [ht, List.any_eq_true]
      rintro ⟨c, hc, hbreak⟩
      have hline := hl.line c hc
      simp [Text.isLineBreak, hline] at hbreak
    simp only [decodeHandle, if_neg he, if_neg hn, if_neg hb]
    rw [ht, String.ofList_toList]

theorem decode_object_eq_ok {config : Config} {text : String} {v : Value} :
    decode config .object text = .ok v ↔
      Text.trim text.toList = Literal.renderNone ∧ v = .null ∨
        ∃ h : Handle, Text.trim text.toList = h.accessor.toList ∧ h.IsLine ∧ v = .handle h := by
  rw [decode]
  constructor
  · intro h
    by_cases hn : Text.trim text.toList = Literal.renderNone
    · rw [if_pos hn] at h
      exact .inl ⟨hn, (Except.ok.inj h).symm⟩
    · rw [if_neg hn] at h
      obtain ⟨handle, hd, h⟩ := Literal.bind_eq_ok.mp h
      obtain ⟨ht, hl⟩ := decodeHandle_eq_ok.mp hd
      exact .inr ⟨handle, ht, hl, (Except.ok.inj h).symm⟩
  · rintro (⟨hn, rfl⟩ | ⟨h, ht, hl, rfl⟩)
    · rw [if_pos hn]
    · have hn : Text.trim text.toList ≠ Literal.renderNone := by
        rw [ht]
        exact fun h => hl.ne_none (String.toList_injective h)
      rw [if_neg hn, decodeHandle_eq_ok.mpr ⟨ht, hl⟩, Literal.ok_bind]

/-! ## Texts -/

/-- A decoded value has the expected kind: items of lists, matrices and tables have theirs or are
null, those of a tuple one kind each. Nothing in it is undefined, a function or an object, every
matrix is filled, and every integer is in the range and the one of its literal. Only where an object
is expected there is one, or null, and its accessor is a line. -/
theorem decode_sound {config : Config} {kind : Kind} {text : String} {v : Value}
    (h : decode config kind text = .ok v) :
    kind = .object ∧ (v = .null ∨ ∃ h : Handle, v = .handle h ∧ h.IsLine) ∨
      kind ≠ .object ∧ v.HasKind kind ∧ v.Everywhere (Value.IsRead config.integerRange) ∧
        ∃ literal, Literal.parse config.maxDepth text = .ok literal ∧
          Converts config.integerRange kind literal v := by
  by_cases hk : kind = .object
  · subst hk
    rcases decode_object_eq_ok.mp h with ⟨-, hv⟩ | ⟨handle, -, hl, hv⟩
    · exact .inl ⟨rfl, .inl hv⟩
    · exact .inl ⟨rfl, .inr ⟨handle, hv, hl⟩⟩
  · obtain ⟨literal, hp, hc⟩ := (decode_eq_ok hk).mp h
    have hconv := Literal.converts_of_convert hc
    exact .inr ⟨hk, hconv.hasKind, hconv.everywhere_isRead, literal, hp, hconv⟩

set_option maxRecDepth 20000 in
/-- A table as the host may write it, with the least integer of the range in it. -/
theorem decode_sound_loose_table :
    let kind := Kind.dict (.tuple [.matrix .integer, .any])
    let text := "\x7b'k': ([[-2147483648, None,], (\n[3, 4])], [\x7b'b', \"a\", 'b'\x7d, -nan,],),\x7d"
    let v := Value.dict [("k", .tuple [.matrix ⟨2, 2, [.integer (-2147483648), .null, .integer 3,
      .integer 4]⟩, .array [.enumSet (.ofList ["a", "b"]), .float Binary64.nan.neg]])]
    decode {} kind text = .ok v ∧ v.HasKind kind ∧ v.Everywhere (Value.IsRead .int32) := by
  intro kind text v
  have hp : Literal.parse 64 text = .ok (.dict [(.str "k", .tuple [.list [.list [.int (-2147483648),
      .none], .list [.int 3, .int 4]], .list [.set [.str "b", .str "a", .str "b"],
        .float Binary64.nan.neg]])]) := by
    cbv
  have h : decode {} kind text = .ok v := (decode_eq_ok (by simp [kind])).mpr ⟨_, hp, rfl⟩
  rcases decode_sound h with ⟨hk, -⟩ | ⟨-, hkind, hread, -⟩
  · simp [kind] at hk
  · exact ⟨h, hkind, hread⟩

end LiteralBridge
