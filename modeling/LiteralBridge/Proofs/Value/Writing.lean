import LiteralBridge.Proofs.Literal.Readers
import LiteralBridge.Proofs.Value.Rows
import LiteralBridge.Proofs.Value.Tree

/-! # What is written of a value

A value is written exactly if all values in it are `Encodable` and it nests within the room
(`exists_write_iff`). If it is data, its text is the one of its literal (`eq_render_of_write`). -/

namespace LiteralBridge

open Literal (bind_eq_ok ok_bind bracketed render renderEntry renderString)

/-! ## Checks -/

/-- All items that are not null have the same constructor. -/
def Uniform (items : List Value) : Prop :=
  ∀ v ∈ items, ∀ w ∈ items, v.isNull = false → w.isNull = false → v.tag = w.tag

/-- The items fill the shape, which has no columns if it has no rows. -/
def FillsShape (m : Matrix Value) : Prop :=
  m.rows * m.cols = m.items.length ∧ (m.rows = 0 → m.cols = 0)

theorem uniform_iff_tags {items : List Value} :
    Uniform items ↔ ∀ s ∈ (items.filter fun v => !v.isNull).map Value.tag,
      ∀ t ∈ (items.filter fun v => !v.isNull).map Value.tag, s = t := by
  simp only [List.forall_mem_map, List.mem_filter, Bool.not_eq_true', and_imp]
  constructor
  · intro h v hv hn w hw hm
    exact h v hv w hw hn hm
  · intro h v hv w hw hn hm
    exact h v hv hn w hw hm

theorem checkUniform_eq_ok {items : List Value} {u : Unit} :
    checkUniform items = .ok u ↔ Uniform items := by
  rw [uniform_iff_tags, checkUniform]
  cases (items.filter fun v => !v.isNull).map Value.tag with
  | nil => simp
  | cons first rest =>
    cases hf : rest.find? fun tag => tag != first with
    | none =>
      have hall : ∀ tag ∈ rest, tag = first := by simpa using hf
      simp only [hf, true_iff]
      intro s hs t ht
      have eq_first {tag : Tag} (h : tag ∈ first :: rest) : tag = first := by
        rcases List.mem_cons.mp h with rfl | h
        · rfl
        · exact hall tag h
      rw [eq_first hs, eq_first ht]
    | some other =>
      have hne : other ≠ first := by simpa using List.find?_some hf
      have hmem := List.mem_of_find?_eq_some hf
      simp only [hf, reduceCtorEq, false_iff]
      intro h
      exact hne (h other (List.mem_cons_of_mem _ hmem) first List.mem_cons_self)

theorem checkShape_eq_ok {m : Matrix Value} {u : Unit} :
    checkShape m = .ok u ↔ FillsShape m := by
  by_cases hw : m.rows * m.cols = m.items.length
  · by_cases hr : m.rows = 0
    · by_cases hc : m.cols = 0
      · simp [checkShape, Matrix.isWellFormed, FillsShape, hr, hc]
      · simp [checkShape, Matrix.isWellFormed, FillsShape, hr, hc]
    · simp [checkShape, Matrix.isWellFormed, FillsShape, hw, hr]
  · simp [checkShape, Matrix.isWellFormed, FillsShape, hw]

theorem descend_eq_ok {limit room below : Nat} :
    descend limit room = .ok below ↔ room = below + 1 := by
  cases room with
  | zero => simp [descend]
  | succ room => simp [descend]

namespace Value

/-- What is checked where a value is written, apart from nesting. -/
def Encodable (range : IntegerRange) : Value → Prop
  | integer i => range.contains i = true
  | array items => Uniform items
  | matrix m => FillsShape m ∧ Uniform m.items
  | function _ => False
  | _ => True

/-- Callbacks are never written. -/
theorem everywhere_isData {range : IntegerRange} {v : Value} (hn : v.Everywhere IsNotHandle)
    (he : v.Everywhere (Encodable range)) : v.Everywhere IsData := by
  refine hn.imp₂ he fun w hw hwe => ?_
  cases w with
  | handle h => exact hw
  | function name => exact hwe
  | _ => trivial

/-! ## Which values are written -/

section Success

variable {config : Config}

theorem exists_bind_eq_ok {ε α β : Type} {x : Except ε α} {f : α → Except ε β} :
    (∃ b, (x >>= f) = .ok b) ↔ ∃ a, x = .ok a ∧ ∃ b, f a = .ok b := by
  simp only [bind_eq_ok]
  constructor
  · rintro ⟨b, a, hx, hf⟩
    exact ⟨a, hx, b, hf⟩
  · rintro ⟨a, hx, b, hf⟩
    exact ⟨b, a, hx, hf⟩

theorem exists_writeAll_iff {room : Nat} {items : List Value} :
    (∃ parts, writeAll config room items = .ok parts) ↔
      ∀ item ∈ items, ∃ text, item.write config room = .ok text := by
  induction items with
  | nil => simp [writeAll]
  | cons v rest ih => simp [writeAll, exists_bind_eq_ok, ih, exists_and_right]

theorem exists_writeEntries_iff {room : Nat} {entries : List (String × Value)} :
    (∃ parts, writeEntries config room entries = .ok parts) ↔
      ∀ entry ∈ entries, ∃ text, entry.2.write config room = .ok text := by
  induction entries with
  | nil => simp [writeEntries]
  | cons entry rest ih =>
    obtain ⟨key, v⟩ := entry
    simp only [writeEntries, exists_bind_eq_ok, List.forall_mem_cons]
    simp [ih, exists_and_right]

/-- One level is left for the container itself. -/
theorem exists_descend_iff {limit room nested : Nat} {α : Type} {f : Nat → Except EncodeError α}
    {p : Prop} (hf : ∀ below, (∃ a, f below = .ok a) ↔ p ∧ nested ≤ below) :
    (∃ a, (descend limit room >>= f) = .ok a) ↔ p ∧ nested + 1 ≤ room := by
  rw [exists_bind_eq_ok]
  constructor
  · rintro ⟨below, hd, ha⟩
    obtain rfl := descend_eq_ok.mp hd
    obtain ⟨hp, hn⟩ := (hf below).mp ha
    exact ⟨hp, by omega⟩
  · rintro ⟨hp, hn⟩
    cases room with
    | zero => omega
    | succ below => exact ⟨below, rfl, (hf below).mpr ⟨hp, by omega⟩⟩

theorem exists_write_enumSet_iff {room : Nat} {names : NameSet} :
    (∃ text, (enumSet names).write config room = .ok text) ↔
      (enumSet names).Everywhere (Encodable config.integerRange) ∧
        (enumSet names).nesting ≤ room := by
  by_cases hn : names.names.isEmpty = true
  · simp [write, Everywhere, Encodable, nesting, hn]
  · simp only [write, Everywhere, Encodable, nesting, if_neg hn]
    exact exists_descend_iff (by simp)

/-- Nothing is written of a matrix without rows, which has no items. The rows of any other are one
level below it. -/
theorem exists_write_matrix_iff {room rows cols : Nat} {items : List Value}
    (h : ∀ {room}, (∃ parts, writeAll config room items = .ok parts) ↔
      EverywhereAll (Encodable config.integerRange) items ∧ nestingAll items ≤ room) :
    (∃ text, (matrix ⟨rows, cols, items⟩).write config room = .ok text) ↔
      (matrix ⟨rows, cols, items⟩).Everywhere (Encodable config.integerRange) ∧
        (matrix ⟨rows, cols, items⟩).nesting ≤ room := by
  simp only [write, Everywhere, Encodable, nesting]
  by_cases hr : rows = 0
  · simp only [if_pos hr]
    refine exists_descend_iff fun below => ?_
    simp only [exists_bind_eq_ok, checkShape_eq_ok, checkUniform_eq_ok, Except.ok.injEq,
      exists_eq', and_true, exists_const, Nat.zero_le]
    constructor
    · rintro ⟨hshape, hu⟩
      have hnil : items = [] := by
        have hlen := hshape.1
        simpa [hr, eq_comm] using hlen
      exact ⟨⟨hshape, hu⟩, by simp [hnil, EverywhereAll]⟩
    · exact And.left
  · simp only [if_neg hr]
    refine exists_descend_iff fun below => ?_
    have hrows : (∃ text, (descend config.maxDepth below >>= fun room =>
        writeAll config room items >>= fun parts =>
          .ok (bracketed '[' ']' (renderRows cols rows parts))) = .ok text) ↔
        EverywhereAll (Encodable config.integerRange) items ∧ nestingAll items + 1 ≤ below := by
      refine exists_descend_iff fun below => ?_
      simp only [exists_bind_eq_ok, Except.ok.injEq, exists_eq', and_true, h]
    rw [exists_bind_eq_ok]
    simp only [checkShape_eq_ok, exists_bind_eq_ok (x := checkUniform items), checkUniform_eq_ok,
      exists_const, hrows, and_assoc]

/-- A value is written exactly if everything in it can be and the levels suffice. -/
theorem exists_write_iff {room : Nat} {v : Value} :
    (∃ text, v.write config room = .ok text) ↔
      v.Everywhere (Encodable config.integerRange) ∧ v.nesting ≤ room := by
  have all {items : List Value} {room : Nat}
      (ih : ∀ item ∈ items, ∀ {room}, (∃ text, item.write config room = .ok text) ↔
        item.Everywhere (Encodable config.integerRange) ∧ item.nesting ≤ room) :
      (∃ parts, writeAll config room items = .ok parts) ↔
        EverywhereAll (Encodable config.integerRange) items ∧ nestingAll items ≤ room := by
    rw [exists_writeAll_iff, everywhereAll_iff, nestingAll_le_iff, ← forall_and]
    simp only [← imp_and]
    exact forall₂_congr fun item h => ih item h
  induction v generalizing room with
  | null => simp [write, Everywhere, Encodable, nesting]
  | undefined => simp [write, Everywhere, Encodable, nesting]
  | boolean b => simp [write, Everywhere, Encodable, nesting]
  | integer i =>
    by_cases hi : config.integerRange.contains i = true
    · simp [write, encodeInteger, Everywhere, Encodable, nesting, hi]
    · simp [write, encodeInteger, Everywhere, Encodable, nesting, hi]
  | float x => simp [write, Everywhere, Encodable, nesting]
  | string s => simp [write, Everywhere, Encodable, nesting]
  | enum s => simp [write, Everywhere, Encodable, nesting]
  | enumSet names => exact exists_write_enumSet_iff
  | array items ih =>
    simp only [write, Everywhere, Encodable, nesting]
    refine exists_descend_iff fun below => ?_
    simp only [exists_bind_eq_ok, checkUniform_eq_ok, Except.ok.injEq, exists_eq', and_true,
      exists_const, all ih, and_assoc]
  | matrix rows cols items ih => exact exists_write_matrix_iff (all ih)
  | tuple items ih =>
    simp only [write, Everywhere, Encodable, nesting, true_and]
    refine exists_descend_iff fun below => ?_
    simp only [exists_bind_eq_ok, Except.ok.injEq, exists_eq', and_true, all ih]
  | dict entries ih =>
    simp only [write, Everywhere, Encodable, nesting, true_and]
    refine exists_descend_iff fun below => ?_
    simp only [exists_bind_eq_ok, Except.ok.injEq, exists_eq', and_true]
    rw [exists_writeEntries_iff, everywhereEntries_iff, nestingEntries_le_iff, ← forall_and]
    simp only [← imp_and]
    exact forall₂_congr fun entry h => ih entry h
  | handle h => simp [write, Everywhere, Encodable, nesting]
  | function name => simp [write, Everywhere, Encodable, nesting]

end Success

/-! ## The text that is written -/

section Text

variable {config : Config}

theorem eq_map_of_writeAll {room : Nat} {items : List Value} {f : Value → List Char}
    {parts : List (List Char)} (h : writeAll config room items = .ok parts)
    (hf : ∀ item ∈ items, ∀ {text}, item.write config room = .ok text → text = f item) :
    parts = items.map f := by
  induction items generalizing parts with
  | nil => exact (Except.ok.inj h).symm
  | cons v rest ih =>
    obtain ⟨hv, hrest⟩ := List.forall_mem_cons.mp hf
    obtain ⟨part, hpart, h⟩ := bind_eq_ok.mp h
    obtain ⟨others, hothers, h⟩ := bind_eq_ok.mp h
    rw [← Except.ok.inj h, hv hpart, ih hothers hrest, List.map_cons]

theorem eq_map_of_writeEntries {room : Nat} {entries : List (String × Value)}
    {f : Value → List Char} {parts : List (List Char)}
    (h : writeEntries config room entries = .ok parts)
    (hf : ∀ entry ∈ entries, ∀ {text}, entry.2.write config room = .ok text → text = f entry.2) :
    parts = entries.map fun entry => renderEntry (renderString entry.1) (f entry.2) := by
  induction entries generalizing parts with
  | nil => exact (Except.ok.inj h).symm
  | cons entry rest ih =>
    obtain ⟨key, v⟩ := entry
    obtain ⟨hv, hrest⟩ := List.forall_mem_cons.mp hf
    obtain ⟨part, hpart, h⟩ := bind_eq_ok.mp h
    obtain ⟨others, hothers, h⟩ := bind_eq_ok.mp h
    rw [← Except.ok.inj h, hv hpart, ih hothers hrest, List.map_cons]

/-- The written rows of a matrix are the rows of its written items. -/
theorem renderRows_map {rows cols : Nat} {literals : List Literal}
    (h : rows * cols ≤ literals.length) :
    renderRows cols rows (literals.map render) =
      (Matrix.chunks cols rows literals).map fun row => bracketed '[' ']' (row.map render) := by
  induction rows generalizing literals with
  | zero => rfl
  | succ rows ih =>
    obtain ⟨hc, hrest⟩ := Matrix.chunks_succ h
    rw [renderRows, hc, List.map_cons, ← List.map_take, ← List.map_drop, ih hrest]

theorem eq_render_of_write_enumSet {room : Nat} {names : NameSet} {text : List Char}
    (h : (enumSet names).write config room = .ok text) : text = (enumSet names).literal.render := by
  have ht : text = renderNames names := by
    by_cases hn : names.names.isEmpty = true
    · simp only [write, if_pos hn] at h
      exact (Except.ok.inj h).symm
    · simp only [write, if_neg hn] at h
      obtain ⟨below, -, h⟩ := bind_eq_ok.mp h
      exact (Except.ok.inj h).symm
  rw [ht, renderNames_eq_render, literal]

theorem eq_render_of_write_matrix {room rows cols : Nat} {items : List Value} {text : List Char}
    (h : (matrix ⟨rows, cols, items⟩).write config room = .ok text)
    (hparts : ∀ {room parts}, writeAll config room items = .ok parts →
      parts = (literalAll items).map render) :
    text = (matrix ⟨rows, cols, items⟩).literal.render := by
  obtain ⟨below, -, h⟩ := bind_eq_ok.mp h
  obtain ⟨_, hshape, h⟩ := bind_eq_ok.mp h
  obtain ⟨_, -, h⟩ := bind_eq_ok.mp h
  have hlen : rows * cols ≤ (literalAll items).length := by
    rw [literalAll_eq_map, List.length_map]
    exact Nat.le_of_eq (checkShape_eq_ok.mp hshape).1
  have ht : text = bracketed '[' ']' (renderRows cols rows ((literalAll items).map render)) := by
    by_cases hr : rows = 0
    · simp only [if_pos hr] at h
      rw [← Except.ok.inj h, hr]
      rfl
    · simp only [if_neg hr] at h
      obtain ⟨_, -, h⟩ := bind_eq_ok.mp h
      obtain ⟨texts, htexts, h⟩ := bind_eq_ok.mp h
      rw [← Except.ok.inj h, hparts htexts]
  have hrow : (render ∘ Literal.list) = fun row => bracketed '[' ']' (row.map render) := by
    funext row
    rw [Function.comp_apply, render, Literal.renderAll_eq_map]
  rw [ht, renderRows_map hlen, literal, render, Literal.renderAll_eq_map, List.map_map, hrow]
  rfl

/-- The text of data is the canonical text of its literal. -/
theorem eq_render_of_write {room : Nat} {v : Value} {text : List Char}
    (h : v.write config room = .ok text) (hd : v.Everywhere IsData) : text = v.literal.render := by
  have parts {items : List Value} {room : Nat} {parts : List (List Char)}
      (ih : ∀ item ∈ items, ∀ {room text}, item.write config room = .ok text →
        item.Everywhere IsData → text = item.literal.render)
      (h : writeAll config room items = .ok parts) (hd : EverywhereAll IsData items) :
      parts = (literalAll items).map render := by
    rw [literalAll_eq_map, List.map_map]
    exact eq_map_of_writeAll h fun item hi _ ht => ih item hi ht (everywhereAll_iff.mp hd item hi)
  induction v generalizing room text with
  | null => exact (Except.ok.inj h).symm
  | undefined => exact (Except.ok.inj h).symm
  | boolean b => exact (Except.ok.inj h).symm
  | integer i =>
    by_cases hi : config.integerRange.contains i = true
    · simp only [write, encodeInteger, if_pos hi, Except.ok.injEq] at h
      exact h.symm
    · simp [write, encodeInteger, hi] at h
  | float x => exact (Except.ok.inj h).symm
  | string s => exact (Except.ok.inj h).symm
  | enum s => exact (Except.ok.inj h).symm
  | enumSet names => exact eq_render_of_write_enumSet h
  | array items ih =>
    obtain ⟨below, -, h⟩ := bind_eq_ok.mp h
    obtain ⟨_, -, h⟩ := bind_eq_ok.mp h
    obtain ⟨texts, hparts, h⟩ := bind_eq_ok.mp h
    rw [← Except.ok.inj h, literal, render, Literal.renderAll_eq_map, parts ih hparts hd.2]
  | matrix rows cols items ih =>
    exact eq_render_of_write_matrix h fun hparts => parts ih hparts hd.2
  | tuple items ih =>
    obtain ⟨below, -, h⟩ := bind_eq_ok.mp h
    obtain ⟨texts, hparts, h⟩ := bind_eq_ok.mp h
    rw [← Except.ok.inj h, literal, render, Literal.renderAll_eq_map, parts ih hparts hd.2]
  | dict entries ih =>
    obtain ⟨below, -, h⟩ := bind_eq_ok.mp h
    obtain ⟨texts, hparts, h⟩ := bind_eq_ok.mp h
    have htexts := eq_map_of_writeEntries (f := fun v => v.literal.render) hparts
      fun entry he _ ht => ih entry he ht (everywhereEntries_iff.mp hd.2 entry he)
    rw [← Except.ok.inj h, htexts, literal, render, Literal.renderEntries_eq_map,
      literalEntries_eq_map, List.map_map]
    rfl
  | handle h => exact hd.elim
  | function name => exact hd.elim

end Text

end Value

end LiteralBridge
