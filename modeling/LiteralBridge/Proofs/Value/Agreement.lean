import LiteralBridge.Proofs.Literal.Lines
import LiteralBridge.Proofs.Literal.Rendering
import LiteralBridge.Proofs.Value.Writing

/-! # The writer and the parser agree

The containers that the writer counts for a value are the brackets that the parser counts in its text
(`depth_literal`). So the text of data is read as its literal under the limit it was written with,
and under another limit it is refused exactly if the value is (`parse_encode`). -/

namespace LiteralBridge

open Literal (depthAll depthEntries)

/-! ## Depth -/

theorem Literal.depthAll_append (items more : List Literal) :
    depthAll (items ++ more) = max (depthAll items) (depthAll more) := by
  induction items with
  | nil => simp [depthAll]
  | cons item rest ih => rw [List.cons_append, depthAll, depthAll, ih, Nat.max_assoc]

/-- Rows are one level above their cells, even if all of them are empty. -/
theorem Literal.depthAll_map_list {rows : List (List Literal)} (h : rows ≠ []) :
    depthAll (rows.map .list) = depthAll rows.flatten + 1 := by
  induction rows with
  | nil => simp at h
  | cons row rest ih =>
    cases rest with
    | nil => simp [depthAll, depth]
    | cons next more =>
      have hfirst : depthAll ((row :: next :: more).map .list) =
          max (depthAll row + 1) (depthAll ((next :: more).map .list)) := rfl
      have hflat : (row :: next :: more).flatten = row ++ (next :: more).flatten := rfl
      rw [hfirst, ih (by simp), hflat, depthAll_append, Nat.add_max_add_right]

namespace Value

theorem depthAll_literalAll {items : List Value}
    (h : ∀ item ∈ items, item.literal.depth = item.nesting) :
    depthAll (literalAll items) = nestingAll items := by
  induction items with
  | nil => rfl
  | cons v rest ih =>
    obtain ⟨hv, hrest⟩ := List.forall_mem_cons.mp h
    rw [literalAll, depthAll, nestingAll, hv, ih hrest]

theorem depthEntries_literalEntries {entries : List (String × Value)}
    (h : ∀ entry ∈ entries, entry.2.literal.depth = entry.2.nesting) :
    depthEntries (literalEntries entries) = nestingEntries entries := by
  induction entries with
  | nil => rfl
  | cons entry rest ih =>
    obtain ⟨key, v⟩ := entry
    obtain ⟨hv, hrest⟩ := List.forall_mem_cons.mp h
    have hkey : (Literal.str key).depth = 0 := rfl
    rw [literalEntries, depthEntries, nestingEntries, hv, ih hrest, hkey, Nat.zero_max]

/-- The literal of a value nests as deep as the value. -/
theorem depth_literal {range : IntegerRange} {v : Value} (h : v.Everywhere (Encodable range)) :
    v.literal.depth = v.nesting := by
  induction v with
  | null => rfl
  | undefined => rfl
  | boolean b => rfl
  | integer i => rfl
  | float x => rfl
  | string s => rfl
  | enum s => rfl
  | enumSet names =>
    have hz : depthAll (names.names.map Literal.str) = 0 := by
      refine Nat.le_zero.mp (Literal.depthAll_le_iff.mpr ?_)
      simp [Literal.depth]
    rw [literal, Literal.depth, hz, nesting, List.isEmpty_map]
  | array items ih =>
    rw [literal, Literal.depth, nesting,
      depthAll_literalAll fun item hi => ih item hi (everywhereAll_iff.mp h.2 item hi)]
  | matrix rows cols items ih =>
    obtain ⟨⟨⟨hlen, -⟩, -⟩, hall⟩ := h
    have hitems := depthAll_literalAll fun item hi => ih item hi (everywhereAll_iff.mp hall item hi)
    have hlits : rows * cols = (literalAll items).length := by
      rw [literalAll_eq_map, List.length_map]
      exact hlen
    rw [literal, Literal.depth, nesting, Matrix.rowSlices]
    by_cases hr : rows = 0
    · rw [if_pos hr, hr]
      rfl
    · have hne : Matrix.chunks cols rows (literalAll items) ≠ [] := by
        rw [← List.length_pos_iff, Matrix.length_chunks (Nat.le_of_eq hlits)]
        omega
      rw [if_neg hr, Literal.depthAll_map_list hne, Matrix.flatten_chunks hlits, hitems]
  | tuple items ih =>
    rw [literal, Literal.depth, nesting,
      depthAll_literalAll fun item hi => ih item hi (everywhereAll_iff.mp h.2 item hi)]
  | dict entries ih =>
    rw [literal, Literal.depth, nesting, depthEntries_literalEntries fun entry he =>
      ih entry he (everywhereEntries_iff.mp h.2 entry he)]
  | handle h => rfl
  | function name => rfl

/-! ## Integers -/

theorem fitsInt_of_contains {range : IntegerRange} {i : Int} (h : range.contains i = true) :
    Literal.FitsInt i := by
  obtain ⟨hlow, hhigh⟩ := range.word_of_contains h
  constructor <;> omega

/-- Integers that may cross have 128 bits. -/
theorem fits_literal {range : IntegerRange} {v : Value} (h : v.Everywhere (Encodable range)) :
    v.literal.Fits := by
  have all {items : List Value}
      (ih : ∀ item ∈ items, item.Everywhere (Encodable range) → item.literal.Fits)
      (h : EverywhereAll (Encodable range) items) : ∀ literal ∈ literalAll items, literal.Fits := by
    rw [literalAll_eq_map]
    exact List.forall_mem_map.mpr fun item hi => ih item hi (everywhereAll_iff.mp h item hi)
  induction v with
  | null => trivial
  | undefined => trivial
  | boolean b => trivial
  | integer i => exact fitsInt_of_contains h
  | float x => trivial
  | string s => trivial
  | enum s => trivial
  | enumSet names =>
    refine Literal.fitsAll_iff.mpr (List.forall_mem_map.mpr fun name _ => ?_)
    trivial
  | array items ih => exact Literal.fitsAll_iff.mpr (all ih h.2)
  | matrix rows cols items ih =>
    have hlits := all ih h.2
    obtain ⟨⟨⟨hlen, -⟩, -⟩, -⟩ := h
    have hflat : (Matrix.chunks cols rows (literalAll items)).flatten = literalAll items := by
      apply Matrix.flatten_chunks
      rw [literalAll_eq_map, List.length_map]
      exact hlen
    rw [← hflat] at hlits
    refine Literal.fitsAll_iff.mpr (List.forall_mem_map.mpr fun row hrow => ?_)
    exact Literal.fitsAll_iff.mpr fun literal hl =>
      hlits literal (List.mem_flatten.mpr ⟨row, hrow, hl⟩)
  | tuple items ih => exact Literal.fitsAll_iff.mpr (all ih h.2)
  | dict entries ih =>
    refine Literal.fitsEntries_iff.mpr ?_
    rw [literalEntries_eq_map]
    exact List.forall_mem_map.mpr fun entry he =>
      ⟨trivial, ih entry he (everywhereEntries_iff.mp h.2 entry he)⟩
  | handle h => trivial
  | function name => trivial

/-! ## Texts -/

section Encode

variable {config : Config} {v : Value}

theorem exists_encode_iff :
    (∃ text, v.encode config = .ok text) ↔
      v.Everywhere (Encodable config.integerRange) ∧ v.nesting ≤ config.maxDepth := by
  rw [← exists_write_iff, encode, exists_bind_eq_ok]
  simp

theorem source_of_encode {text : String} (hd : v.Everywhere IsData)
    (h : v.encode config = .ok text) : v.literal.source = text := by
  obtain ⟨cs, hw, h⟩ := Literal.bind_eq_ok.mp h
  rw [← Except.ok.inj h, eq_render_of_write hw hd, Literal.source]

theorem parse_of_encode {text : String} (hd : v.Everywhere IsData)
    (h : v.encode config = .ok text) :
    Literal.parse config.maxDepth text = .ok v.literal.canonical := by
  obtain ⟨he, hn⟩ := exists_encode_iff.mp ⟨text, h⟩
  rw [← source_of_encode hd h]
  exact Literal.parse_source_of_le (fits_literal he) (depth_literal he ▸ hn)

/-- What was encoded under one limit can be encoded under another exactly if its text can be
parsed. -/
theorem exists_encode_iff_exists_parse {text : String} (hd : v.Everywhere IsData)
    (h : v.encode config = .ok text) (limit : Nat) :
    (∃ other, v.encode { config with maxDepth := limit } = .ok other) ↔
      ∃ literal, Literal.parse limit text = .ok literal := by
  obtain ⟨he, -⟩ := exists_encode_iff.mp ⟨text, h⟩
  have hdepth := depth_literal he
  rw [exists_encode_iff, ← source_of_encode hd h]
  constructor
  · rintro ⟨-, hn⟩
    exact ⟨_, Literal.parse_source_of_le (fits_literal he) (hdepth ▸ hn)⟩
  · rintro ⟨literal, hp⟩
    refine ⟨he, Nat.not_lt.mp fun hlt => ?_⟩
    obtain ⟨offset, hfail⟩ := Literal.parse_source_of_lt (fits_literal he) (hdepth ▸ hlt)
    rw [hfail] at hp
    simp at hp

/-- The text of data is one line, is read as the literal of the data, and is the canonical text of
that literal. Under any limit it can be read exactly if the data can be written. -/
theorem parse_encode {text : String} (hd : v.Everywhere IsData) (h : v.encode config = .ok text) :
    Literal.parse config.maxDepth text = .ok v.literal.canonical ∧
      (∀ c ∈ text.toList, Text.isControl c = false ∧ c ≠ '\u2028' ∧ c ≠ '\u2029') ∧
      v.literal.source = text ∧
      ∀ limit, (∃ other, v.encode { config with maxDepth := limit } = .ok other) ↔
        ∃ literal, Literal.parse limit text = .ok literal := by
  have hs := source_of_encode hd h
  refine ⟨parse_of_encode hd h, fun c hc => ?_, hs, exists_encode_iff_exists_parse hd h⟩
  rw [← hs, Literal.source, String.toList_ofList] at hc
  have hsafe := Literal.lineSafe_render v.literal c hc
  simpa [Literal.isLineSafe, and_assoc] using hsafe

end Encode

/-- A matrix of sets of names, of which only the empty one is written without brackets. -/
theorem parse_encode_matrix_of_sets :
    let v := tuple [matrix ⟨2, 1, [enumSet (.ofList ["b", "a"]), enumSet .empty]⟩, undefined]
    let text := "([[\x7b\"a\", \"b\"\x7d], [set()]], None)"
    v.Everywhere IsData ∧ v.encode ⟨.int32, 4, "!"⟩ = .ok text ∧
      Literal.parse 4 text = .ok v.literal.canonical ∧
      ¬ ∃ literal, Literal.parse 3 text = .ok literal := by
  intro v text
  have hd : v.Everywhere IsData := by
    simp [v, Everywhere, EverywhereAll, IsData]
  have h : v.encode ⟨.int32, 4, "!"⟩ = .ok text := by
    rfl
  obtain ⟨hparse, -, -, hlimit⟩ := parse_encode hd h
  refine ⟨hd, h, hparse, fun hp => ?_⟩
  obtain ⟨-, hn⟩ := exists_encode_iff.mp ((hlimit 3).mpr hp)
  exact absurd hn (by decide)

end Value

end LiteralBridge
