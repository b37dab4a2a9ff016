import LiteralBridge.Proofs.Value.Agreement
import LiteralBridge.Proofs.Value.Conversion
import LiteralBridge.Proofs.Value.Kinds
import LiteralBridge.Proofs.Value.Tables

/-! # Values come back from the host

A value that could be encoded is decoded from its text as every kind it has (`decode_encode`). Of all
that it holds, only an undefined value comes back as null, and any NaN as the one NaN of the
library. -/

namespace LiteralBridge

open Literal (convert convertAll convertEntries convertEach convertRows orNull toAny toAnyAll
  toAnyAll_eq toAnyEntries toAnyEntries_eq toNames ok_bind)

/-! ## Converters of containers -/

section Converters

variable {converted : Literal → Except Mismatch Value} {f : Value → Literal} {g : Value → Value}

theorem convertAll_map {items : List Value} (h : ∀ item ∈ items, converted (f item) = .ok (g item)) :
    convertAll converted (items.map f) = .ok (items.map g) := by
  induction items with
  | nil => rfl
  | cons v rest ih =>
    obtain ⟨hv, hrest⟩ := List.forall_mem_cons.mp h
    rw [List.map_cons, convertAll, hv, ok_bind, ih hrest, ok_bind, List.map_cons]

theorem convertEntries_map (f : Value → Literal) (g : Value → Value)
    {entries : List (String × Value)}
    (h : ∀ entry ∈ entries, converted (f entry.2) = .ok (g entry.2)) :
    convertEntries converted (entries.map fun entry => (.str entry.1, f entry.2)) =
      .ok (entries.map fun entry => (entry.1, g entry.2)) := by
  induction entries with
  | nil => rfl
  | cons entry rest ih =>
    obtain ⟨key, v⟩ := entry
    obtain ⟨hv, hrest⟩ := List.forall_mem_cons.mp h
    rw [List.map_cons, convertEntries, hv, ok_bind, ih hrest, ok_bind, List.map_cons]

theorem convertRows_map {width : Nat} {rows : List (List Value)}
    (hw : ∀ row ∈ rows, row.length = width)
    (h : ∀ row ∈ rows, ∀ item ∈ row, converted (f item) = .ok (g item)) (number : Nat)
    {width? : Option Nat} (hwidth : ∀ w ∈ width?, w = width) :
    convertRows converted number width? (rows.map fun row => .list (row.map f)) =
      .ok (rows.map fun row => row.map g) := by
  induction rows generalizing number width? with
  | nil => rfl
  | cons row rest ih =>
    obtain ⟨hlen, hrestw⟩ := List.forall_mem_cons.mp hw
    obtain ⟨hrow, hrest⟩ := List.forall_mem_cons.mp h
    have hd : width?.getD (row.map f).length = width := by
      cases width? with
      | none => simpa using hlen
      | some w => exact hwidth w rfl
    have hl : (row.map f).length = width := by simpa using hlen
    rw [List.map_cons, convertRows, hd, if_pos hl, convertAll_map hrow, ok_bind,
      ih hrestw hrest (number + 1) (by simp), ok_bind, List.map_cons]

theorem convertEach_map {range : IntegerRange} {items : List Value} {kinds : List Kind}
    (hl : items.length = kinds.length)
    (h : ∀ (i : Nat) item kind, items[i]? = some item → kinds[i]? = some kind →
      convert range kind (f item) = .ok (g item)) :
    convertEach range kinds (items.map f) = .ok (items.map g) := by
  induction items generalizing kinds with
  | nil =>
    obtain rfl := List.length_eq_zero_iff.mp hl.symm
    rfl
  | cons v rest ih =>
    cases kinds with
    | nil => simp at hl
    | cons kind kinds =>
      have hrest := ih (Nat.succ.inj hl) fun i item kind hi hk => h (i + 1) item kind hi hk
      rw [List.map_cons, convertEach, h 0 v kind rfl rfl, ok_bind, hrest, ok_bind, List.map_cons]

theorem toNames_map (names : List String) : toNames (names.map .str) = .ok names := by
  induction names with
  | nil => rfl
  | cons name rest ih => rw [List.map_cons, toNames, ih, ok_bind]

end Converters

namespace Value

/-! ## What the text of a container is read as -/

theorem canonical_literal_enumSet (names : NameSet) :
    (enumSet names).literal.canonical = .set (names.names.map .str) := by
  rw [literal, Literal.canonical, Literal.canonicalAll_eq_map, List.map_map]
  rfl

theorem canonical_literal_array (items : List Value) :
    (array items).literal.canonical = .list (items.map fun item => item.literal.canonical) := by
  rw [literal, Literal.canonical, Literal.canonicalAll_eq_map, literalAll_eq_map, List.map_map]
  rfl

theorem canonical_literal_tuple (items : List Value) :
    (tuple items).literal.canonical = .tuple (items.map fun item => item.literal.canonical) := by
  rw [literal, Literal.canonical, Literal.canonicalAll_eq_map, literalAll_eq_map, List.map_map]
  rfl

theorem canonical_literal_matrix (rows cols : Nat) (items : List Value) :
    (matrix ⟨rows, cols, items⟩).literal.canonical =
      .list ((Matrix.chunks cols rows items).map fun row =>
        .list (row.map fun item => item.literal.canonical)) := by
  rw [literal, Literal.canonical, Literal.canonicalAll_eq_map, literalAll_eq_map, Matrix.rowSlices,
    Matrix.chunks_map, List.map_map, List.map_map]
  congr 1
  refine List.map_congr_left fun row _ => ?_
  simp only [Function.comp_apply, Literal.canonical, Literal.canonicalAll_eq_map, List.map_map]
  rfl

theorem canonical_literal_dict (entries : List (String × Value)) :
    (dict entries).literal.canonical =
      .dict (entries.map fun entry => (.str entry.1, entry.2.literal.canonical)) := by
  rw [literal, Literal.canonical, Literal.canonicalEntries_eq_map, literalEntries_eq_map,
    List.map_map]
  rfl

/-- Only nulls are read as the literal for the absence of a value. -/
theorem canonical_literal_ne_none {v : Value} {kind : Kind} (hk : v.HasKind kind)
    (hn : v.isNull = false) : v.literal.canonical ≠ .none := by
  cases hk with
  | null => simp [isNull] at hn
  | undefined => simp [isNull] at hn
  | anyNull => simp [isNull] at hn
  | anyUndefined => simp [isNull] at hn
  | _ => simp [literal, Literal.canonical]

theorem orNull_literal {converted : Literal → Except Mismatch Value} {item : Value} {kind : Kind}
    (hk : item.isNull = false → item.HasKind kind)
    (h : item.isNull = false → converted item.literal.canonical = .ok item.canonical) :
    orNull converted item.literal.canonical = .ok item.canonical := by
  cases hn : item.isNull with
  | true =>
    cases item with
    | null => rfl
    | undefined => rfl
    | _ => simp [isNull] at hn
  | false =>
    have hne := canonical_literal_ne_none (hk hn) hn
    rw [← h hn]
    unfold orNull
    split
    · next he => exact absurd he hne
    · rfl

/-! ## Conversion -/

theorem toNameSet_names (names : NameSet) :
    Literal.toNameSet (names.names.map .str) = .ok (enumSet names) := by
  rw [Literal.toNameSet, toNames_map, ok_bind, NameSet.ofList_names]

theorem toInteger_of_contains {range : IntegerRange} {i : Int} (h : range.contains i = true) :
    Literal.toInteger range i = .ok (integer i) := by
  rw [Literal.toInteger, if_pos h, Literal.narrow_of_contains h]

/-- The entries of a table in order make the same table. -/
theorem table_canonical {entries : List (String × Value)} (h : Entries.Sorted entries) :
    table (entries.map fun entry => (entry.1, entry.2.canonical)) = (dict entries).canonical := by
  rw [table, Entries.ofList_of_sorted (Entries.sorted_map h canonical), canonical,
    canonicalEntries_eq_map]

/-- The rows of a matrix make the same matrix. -/
theorem matrix_of_rows {rows cols : Nat} {items : List Value}
    (h : FillsShape ⟨rows, cols, items⟩) :
    let cells := (Matrix.chunks cols rows items).map fun row => row.map canonical
    matrix ⟨((Matrix.chunks cols rows items).map fun row =>
        Literal.list (row.map fun item => item.literal.canonical)).length,
      Literal.width cells, cells.flatten⟩ = (matrix ⟨rows, cols, items⟩).canonical := by
  intro cells
  obtain ⟨hlen, hempty⟩ := h
  have hrows := Matrix.length_chunks (Nat.le_of_eq hlen)
  have hwidth : Literal.width cells = cols := by
    cases hc : Matrix.chunks cols rows items with
    | nil =>
      rw [hc] at hrows
      simp only [cells, hc]
      exact (hempty hrows.symm).symm
    | cons row rest =>
      have hrow : row ∈ Matrix.chunks cols rows items := by
        rw [hc]
        exact List.mem_cons_self
      simp only [cells, hc, List.map_cons, Literal.width, List.length_map]
      exact Matrix.length_of_mem_chunks hrow
  have hcells : cells.flatten = items.map canonical := by
    rw [← List.map_flatten, Matrix.flatten_chunks hlen]
  rw [hwidth, hcells, List.length_map, hrows, canonical, canonicalAll_eq_map]

section Containers

variable {range : IntegerRange} {kind : Kind} {items : List Value}

theorem convert_array
    (h : ∀ item ∈ items,
      orNull (convert range kind) item.literal.canonical = .ok item.canonical) :
    (array items).literal.canonical.convert range (.array kind) = .ok (array items).canonical := by
  rw [canonical_literal_array, convert, convertAll_map h, ok_bind, canonical, canonicalAll_eq_map]

theorem convert_matrix {rows cols : Nat} (hs : FillsShape ⟨rows, cols, items⟩)
    (h : ∀ item ∈ items,
      orNull (convert range kind) item.literal.canonical = .ok item.canonical) :
    (matrix ⟨rows, cols, items⟩).literal.canonical.convert range (.matrix kind) =
      .ok (matrix ⟨rows, cols, items⟩).canonical := by
  have hlen : rows * cols = items.length := hs.1
  have hnone : ∀ w ∈ (Option.none : Option Nat), w = cols := by simp
  have hcells : ∀ row ∈ Matrix.chunks cols rows items, ∀ item ∈ row,
      orNull (convert range kind) item.literal.canonical = .ok item.canonical := by
    intro row hrow item hi
    apply h item
    rw [← Matrix.flatten_chunks hlen]
    exact List.mem_flatten.mpr ⟨row, hrow, hi⟩
  have hrows := convertRows_map (fun _ => Matrix.length_of_mem_chunks) hcells 0 hnone
  rw [canonical_literal_matrix, convert, hrows, ok_bind, ← matrix_of_rows hs]

theorem convert_tuple {kinds : List Kind} (hl : items.length = kinds.length)
    (h : ∀ (i : Nat) item kind, items[i]? = some item → kinds[i]? = some kind →
      convert range kind item.literal.canonical = .ok item.canonical) :
    (tuple items).literal.canonical.convert range (.tuple kinds) = .ok (tuple items).canonical := by
  rw [canonical_literal_tuple, convert, List.length_map, if_pos hl, convertEach_map hl h, ok_bind,
    canonical, canonicalAll_eq_map]

theorem convert_dict {entries : List (String × Value)} (ho : Entries.Sorted entries)
    (h : ∀ entry ∈ entries,
      orNull (convert range kind) entry.2.literal.canonical = .ok entry.2.canonical) :
    (dict entries).literal.canonical.convert range (.dict kind) = .ok (dict entries).canonical := by
  rw [canonical_literal_dict, convert,
    convertEntries_map (fun v => v.literal.canonical) canonical h, ok_bind, table_canonical ho]

theorem toAny_array
    (h : ∀ item ∈ items, toAny range item.literal.canonical = .ok item.canonical) :
    toAny range (array items).literal.canonical = .ok (array items).canonical := by
  rw [canonical_literal_array, toAny, toAnyAll_eq, convertAll_map h, ok_bind, canonical,
    canonicalAll_eq_map]

theorem toAny_tuple
    (h : ∀ item ∈ items, toAny range item.literal.canonical = .ok item.canonical) :
    toAny range (tuple items).literal.canonical = .ok (tuple items).canonical := by
  rw [canonical_literal_tuple, toAny, toAnyAll_eq, convertAll_map h, ok_bind, canonical,
    canonicalAll_eq_map]

theorem toAny_dict {entries : List (String × Value)} (ho : Entries.Sorted entries)
    (h : ∀ entry ∈ entries, toAny range entry.2.literal.canonical = .ok entry.2.canonical) :
    toAny range (dict entries).literal.canonical = .ok (dict entries).canonical := by
  rw [canonical_literal_dict, toAny, toAnyEntries_eq,
    convertEntries_map (fun v => v.literal.canonical) canonical h, ok_bind, table_canonical ho]

end Containers

/-- What the text of a value is read as is converted to the value, by every kind that it has. -/
theorem convert_literal {range : IntegerRange} {v : Value} {kind : Kind} (hk : v.HasKind kind)
    (ho : v.Ordered) (he : v.Everywhere (Encodable range)) :
    v.literal.canonical.convert range kind = .ok v.canonical := by
  induction hk with
  | null => rfl
  | undefined => rfl
  | boolean => rfl
  | integer => exact toInteger_of_contains he
  | float => rfl
  | string => rfl
  | enum => rfl
  | @enumSet names =>
    rw [canonical_literal_enumSet]
    exact toNameSet_names names
  | array h ih =>
    apply convert_array
    intro item hi
    apply orNull_literal (h item hi)
    intro hn
    exact ih item hi hn (orderedItems_iff.mp ho item hi) (everywhereAll_iff.mp he.2 item hi)
  | matrix h ih =>
    apply convert_matrix he.1.1
    intro item hi
    apply orNull_literal (h item hi)
    intro hn
    exact ih item hi hn (orderedItems_iff.mp ho item hi) (everywhereAll_iff.mp he.2 item hi)
  | tuple hl h ih =>
    apply convert_tuple hl
    intro i item kind hi hkind
    have hmem := List.mem_of_getElem? hi
    exact ih i item kind hi hkind (orderedItems_iff.mp ho item hmem)
      (everywhereAll_iff.mp he.2 item hmem)
  | dict h ih =>
    apply convert_dict ho.1
    intro entry hi
    apply orNull_literal (h entry hi)
    intro hn
    exact ih entry hi hn (orderedEntries_iff.mp ho.2 entry hi)
      (everywhereEntries_iff.mp he.2 entry hi)
  | anyNull => rfl
  | anyUndefined => rfl
  | anyBoolean => rfl
  | anyInteger => exact toInteger_of_contains he
  | anyFloat => rfl
  | anyString => rfl
  | @anyEnumSet names =>
    rw [canonical_literal_enumSet]
    exact toNameSet_names names
  | anyArray h ih =>
    apply toAny_array
    intro item hi
    exact ih item hi (orderedItems_iff.mp ho item hi) (everywhereAll_iff.mp he.2 item hi)
  | anyTuple h ih =>
    apply toAny_tuple
    intro item hi
    exact ih item hi (orderedItems_iff.mp ho item hi) (everywhereAll_iff.mp he.2 item hi)
  | anyDict h ih =>
    apply toAny_dict ho.1
    intro entry hi
    exact ih entry hi (orderedEntries_iff.mp ho.2 entry hi)
      (everywhereEntries_iff.mp he.2 entry hi)

/-! ## Texts -/

theorem decode_eq_of_ne_object {config : Config} {kind : Kind} (hk : kind ≠ .object)
    {text : String} {literal : Literal} {v : Value}
    (hp : Literal.parse config.maxDepth text = .ok literal)
    (hc : literal.convert config.integerRange kind = .ok v) : decode config kind text = .ok v :=
  (decode_eq_ok hk).mpr ⟨literal, hp, hc⟩

/-- A value is decoded from its text as every kind that it has, with null for what was undefined and
with one NaN. -/
theorem decode_encode {config : Config} {v : Value} {kind : Kind} {text : String}
    (hk : v.HasKind kind) (ho : v.Ordered) (h : v.encode config = .ok text) :
    decode config kind text = .ok v.canonical := by
  obtain ⟨he, -⟩ := exists_encode_iff.mp ⟨text, h⟩
  have hne : kind ≠ .object := by
    rintro rfl
    cases hk
  exact decode_eq_of_ne_object hne (parse_of_encode hk.everywhere_isData h)
    (convert_literal hk ho he)

/-- A matrix without columns, a set without names, a tuple of one NaN and an undefined item. -/
theorem decode_encode_empty_rows :
    let kind := Kind.dict (.tuple [.matrix .float, .array .enumSet, .any])
    let v (x : Binary64) (missing : Value) := dict [("k", tuple [matrix ⟨2, 0, []⟩,
      array [enumSet .empty, missing], array [tuple [float x], missing]])]
    let text := "\x7b\"k\": ([[], []], [set(), None], [(float('nan'),), None])\x7d"
    let sent := v Binary64.nan.neg undefined
    sent.HasKind kind ∧ sent.Ordered ∧ sent.encode {} = .ok text ∧
      decode {} kind text = .ok (v .nan null) := by
  intro kind v text sent
  have hk : sent.HasKind kind := by
    refine .dict fun entry he _ => ?_
    obtain rfl := List.mem_singleton.mp he
    refine .tuple rfl fun i item kind hi hkind => ?_
    match i with
    | 0 =>
      obtain ⟨rfl, rfl⟩ := And.intro (Option.some.inj hi) (Option.some.inj hkind)
      exact .matrix (by simp)
    | 1 =>
      obtain ⟨rfl, rfl⟩ := And.intro (Option.some.inj hi) (Option.some.inj hkind)
      refine .array fun item hm hn => ?_
      simp only [List.mem_cons, List.not_mem_nil, or_false] at hm
      rcases hm with rfl | rfl
      · exact .enumSet
      · simp [isNull] at hn
    | 2 =>
      obtain ⟨rfl, rfl⟩ := And.intro (Option.some.inj hi) (Option.some.inj hkind)
      refine .anyArray fun item hm => ?_
      simp only [List.mem_cons, List.not_mem_nil, or_false] at hm
      rcases hm with rfl | rfl
      · exact .anyTuple fun item hm => List.mem_singleton.mp hm ▸ .anyFloat
      · exact .anyUndefined
    | i + 3 => simp at hi
  have ho : sent.Ordered := by
    simp [sent, v, Ordered, OrderedItems, OrderedEntries, Entries.Sorted]
  have h : sent.encode {} = .ok text := by rfl
  exact ⟨hk, ho, h, decode_encode hk ho h⟩

end Value

end LiteralBridge
