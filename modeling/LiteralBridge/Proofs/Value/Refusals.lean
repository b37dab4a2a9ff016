import LiteralBridge.Proofs.Value.Agreement

/-! # Refusals of the writer

A value is written exactly if it is `Writable`, which asks for each thing that could be wrong with it
to be right. What the writer reports of a value that it refuses is a `Violation` in that value: a
`Flaw` of something that occurs in it, or nesting beyond the room that was left. -/

namespace LiteralBridge

open Literal (bind_eq_error)

/-! ## Kinds of items -/

def Tag.all : List Tag :=
  [null, undefined, boolean, integer, float, string, enum, enumSet, array, matrix, tuple, dict,
    handle, function]

theorem Tag.find?_name (tag : Tag) : (all.find? fun t => t.name == tag.name) = some tag := by
  cases tag <;> rfl

/-- Different constructors have different names in diagnostics. -/
theorem Tag.name_injective : Function.Injective Tag.name := by
  intro s t h
  rw [← Option.some_inj, ← find?_name s, ← find?_name t, h]

/-- All items that are not null are of the kind with the same name. -/
def SameKind (items : List Value) : Prop :=
  ∀ v ∈ items, ∀ w ∈ items, v.isNull = false → w.isNull = false → v.tag.name = w.tag.name

/-- Two items that are not null are of these kinds, which have different names. -/
def Mixes (items : List Value) (first other : Tag) : Prop :=
  (∃ v ∈ items, v.isNull = false ∧ v.tag = first) ∧
    (∃ w ∈ items, w.isNull = false ∧ w.tag = other) ∧ first.name ≠ other.name

theorem uniform_iff_sameKind {items : List Value} : Uniform items ↔ SameKind items := by
  simp only [Uniform, SameKind, Tag.name_injective.eq_iff]

namespace Value

/-- What has to be right with a value for it to be written. -/
structure Writable (config : Config) (v : Value) : Prop where
  no_function : ∀ name, ¬ (function name).Occurs v
  in_range : ∀ i, (integer i).Occurs v → config.integerRange.contains i = true
  array_items : ∀ items, (array items).Occurs v → SameKind items
  matrix_items : ∀ m, (matrix m).Occurs v → SameKind m.items
  shape : ∀ m, (matrix m).Occurs v → FillsShape m
  depth : v.nesting ≤ config.maxDepth

/-- What can be wrong with a value where it is written, and the error that reports it. -/
inductive Flaw (range : IntegerRange) : Value → EncodeError → Prop
  | function {name : String} : Flaw range (function name) (.function name)
  | outOfRange {i : Int} (h : range.contains i = false) :
    Flaw range (integer i) (.outOfRange i range)
  | array {items : List Value} {first other : Tag} (h : Mixes items first other) :
    Flaw range (array items) (.mixedItems first other)
  | matrix {m : Matrix Value} {first other : Tag} (h : Mixes m.items first other) :
    Flaw range (matrix m) (.mixedItems first other)
  | shape {m : Matrix Value} (h : ¬ FillsShape m) :
    Flaw range (matrix m) (.matrixShape m.rows m.cols m.items.length)

/-- An error names what is wrong with something in a value, or that the value nests deeper than
there is room. -/
inductive Violation (config : Config) (room : Nat) (v : Value) : EncodeError → Prop
  | flaw {part : Value} {e : EncodeError} (h : part.Occurs v)
    (hf : Flaw config.integerRange part e) : Violation config room v e
  | tooDeep (h : room < v.nesting) : Violation config room v (.tooDeep config.maxDepth)

/-! ## Values that are written -/

theorem writable_iff {config : Config} {v : Value} :
    Writable config v ↔
      v.Everywhere (Encodable config.integerRange) ∧ v.nesting ≤ config.maxDepth := by
  rw [everywhere_iff_occurs]
  constructor
  · intro h
    refine ⟨fun part hpart => ?_, h.depth⟩
    cases part with
    | integer i => exact h.in_range i hpart
    | array items => exact uniform_iff_sameKind.mpr (h.array_items items hpart)
    | matrix m =>
      exact ⟨h.shape m hpart, uniform_iff_sameKind.mpr (h.matrix_items m hpart)⟩
    | function name => exact h.no_function name hpart
    | _ => trivial
  · rintro ⟨h, hdepth⟩
    exact {
      no_function := fun name hname => h _ hname
      in_range := fun i hi => h _ hi
      array_items := fun items hitems => uniform_iff_sameKind.mp (h _ hitems)
      matrix_items := fun m hm => uniform_iff_sameKind.mp (h _ hm).2
      shape := fun m hm => (h _ hm).1
      depth := hdepth }

/-! ## Checks that fail -/

variable {config : Config} {v : Value} {e : EncodeError}

theorem flaw_of_encodeInteger {range : IntegerRange} {i : Int}
    (h : encodeInteger range i = .error e) : Flaw range (integer i) e := by
  rw [encodeInteger] at h
  split at h
  · cases h
  · next hi =>
    cases h
    exact .outOfRange (Bool.eq_false_iff.mpr hi)

theorem mixes_of_checkUniform {items : List Value} (h : checkUniform items = .error e) :
    ∃ first other, Mixes items first other ∧ e = .mixedItems first other := by
  have item_of_tag {tag : Tag}
      (ht : tag ∈ (items.filter fun v => !v.isNull).map Value.tag) :
      ∃ v ∈ items, v.isNull = false ∧ v.tag = tag := by
    simpa [and_assoc] using ht
  rw [checkUniform] at h
  split at h
  · cases h
  · next first rest heq =>
    split at h
    · cases h
    · next other hf =>
      cases h
      have hne : other ≠ first := by simpa using List.find?_some hf
      have hfirst := item_of_tag (heq ▸ List.mem_cons_self)
      have hother := item_of_tag (heq ▸ List.mem_cons_of_mem _ (List.mem_of_find?_eq_some hf))
      exact ⟨first, other, ⟨hfirst, hother, Tag.name_injective.ne hne.symm⟩, rfl⟩

theorem flaw_of_checkShape {range : IntegerRange} {m : Matrix Value}
    (h : checkShape m = .error e) : Flaw range (matrix m) e := by
  have hm : ¬ FillsShape m := fun hm => by
    have hok : checkShape m = .ok () := checkShape_eq_ok.mpr hm
    rw [hok] at h
    cases h
  rw [checkShape] at h
  split at h
  · cases h
  · cases h
    exact .shape hm

theorem exists_item_of_writeAll {room : Nat} {items : List Value}
    (h : writeAll config room items = .error e) :
    ∃ item ∈ items, item.write config room = .error e := by
  induction items with
  | nil => cases h
  | cons v rest ih =>
    rcases bind_eq_error.mp h with hv | ⟨part, -, h⟩
    · exact ⟨v, List.mem_cons_self, hv⟩
    · rcases bind_eq_error.mp h with hrest | ⟨parts, -, h⟩
      · obtain ⟨item, hi, hw⟩ := ih hrest
        exact ⟨item, List.mem_cons_of_mem _ hi, hw⟩
      · cases h

theorem exists_entry_of_writeEntries {room : Nat} {entries : List (String × Value)}
    (h : writeEntries config room entries = .error e) :
    ∃ entry ∈ entries, entry.2.write config room = .error e := by
  induction entries with
  | nil => cases h
  | cons entry rest ih =>
    obtain ⟨key, v⟩ := entry
    rcases bind_eq_error.mp h with hv | ⟨part, -, h⟩
    · exact ⟨(key, v), List.mem_cons_self, hv⟩
    · rcases bind_eq_error.mp h with hrest | ⟨parts, -, h⟩
      · obtain ⟨entry, he, hw⟩ := ih hrest
        exact ⟨entry, List.mem_cons_of_mem _ he, hw⟩
      · cases h

/-! ## Values that are refused -/

/-- Where there is room below, what follows is reported; otherwise the value nests too deep. -/
theorem Violation.of_descend {α : Type} {room inside : Nat} {f : Nat → Except EncodeError α}
    (h : (descend config.maxDepth inside >>= f) = .error e)
    (hroom : inside = 0 → room < v.nesting)
    (hf : ∀ below, inside = below + 1 → f below = .error e → Violation config room v e) :
    Violation config room v e := by
  cases inside with
  | zero =>
    cases h
    exact .tooDeep (hroom rfl)
  | succ below => exact hf below rfl h

/-- What is wrong with a part is wrong with the whole, if the levels between them were taken from the
room. -/
theorem Violation.of_part {room below : Nat} {part : Value} (h : Violation config below part e)
    (hocc : ∀ inner : Value, inner.Occurs part → inner.Occurs v)
    (hn : below < part.nesting → room < v.nesting) : Violation config room v e := by
  cases h with
  | flaw hinner hf => exact .flaw (hocc _ hinner) hf
  | tooDeep hdeep => exact .tooDeep (hn hdeep)

theorem Violation.of_items {room below : Nat} {items : List Value}
    (h : writeAll config below items = .error e)
    (ih : ∀ item ∈ items, item.write config below = .error e → Violation config below item e)
    (hocc : ∀ item ∈ items, ∀ inner : Value, inner.Occurs item → inner.Occurs v)
    (hn : below < nestingAll items → room < v.nesting) : Violation config room v e := by
  obtain ⟨item, hi, hw⟩ := exists_item_of_writeAll h
  have hle : item.nesting ≤ nestingAll items := nestingAll_le_iff.mp (Nat.le_refl _) item hi
  exact (ih item hi hw).of_part (hocc item hi) fun hdeep => hn (Nat.lt_of_lt_of_le hdeep hle)

theorem Violation.of_entries {room below : Nat} {entries : List (String × Value)}
    (h : writeEntries config below entries = .error e)
    (ih : ∀ entry ∈ entries, entry.2.write config below = .error e →
      Violation config below entry.2 e)
    (hocc : ∀ entry ∈ entries, ∀ inner : Value, inner.Occurs entry.2 → inner.Occurs v)
    (hn : below < nestingEntries entries → room < v.nesting) : Violation config room v e := by
  obtain ⟨entry, he, hw⟩ := exists_entry_of_writeEntries h
  have hle : entry.2.nesting ≤ nestingEntries entries :=
    nestingEntries_le_iff.mp (Nat.le_refl _) entry he
  exact (ih entry he hw).of_part (hocc entry he) fun hdeep => hn (Nat.lt_of_lt_of_le hdeep hle)

/-- Every check on the way into a value reports something that is wrong with the value. -/
theorem violation_of_write {room : Nat} (h : v.write config room = .error e) :
    Violation config room v e := by
  induction v generalizing room with
  | integer i => exact .flaw .here (flaw_of_encodeInteger h)
  | enumSet names =>
    rw [write] at h
    split at h
    · cases h
    · next hne =>
      have hn : (enumSet names).nesting = 1 := if_neg hne
      refine .of_descend h (by omega) fun below _ h => ?_
      cases h
  | array items ih =>
    rw [write] at h
    have hn : (array items).nesting = nestingAll items + 1 := rfl
    refine .of_descend h (by omega) fun below _ h => ?_
    rcases bind_eq_error.mp h with hu | ⟨_, -, h⟩
    · obtain ⟨first, other, hmixes, rfl⟩ := mixes_of_checkUniform hu
      exact .flaw .here (.array hmixes)
    rcases bind_eq_error.mp h with hw | ⟨parts, -, h⟩
    · exact .of_items hw (fun item hi => ih item hi) (fun item hi inner => .item hi) (by omega)
    · cases h
  | matrix rows cols items ih =>
    rw [write] at h
    have hpos : 0 < (matrix ⟨rows, cols, items⟩).nesting := by
      rw [nesting]
      split <;> omega
    refine .of_descend h (by omega) fun below _ h => ?_
    rcases bind_eq_error.mp h with hs | ⟨_, -, h⟩
    · exact .flaw .here (flaw_of_checkShape hs)
    rcases bind_eq_error.mp h with hu | ⟨_, -, h⟩
    · obtain ⟨first, other, hmixes, rfl⟩ := mixes_of_checkUniform hu
      exact .flaw .here (.matrix hmixes)
    split at h
    · cases h
    · next hrows =>
      -- A row takes a level of its own, between the matrix and its cells.
      have hn : (matrix ⟨rows, cols, items⟩).nesting = nestingAll items + 2 := if_neg hrows
      refine .of_descend h (by omega) fun inside _ h => ?_
      rcases bind_eq_error.mp h with hw | ⟨parts, -, h⟩
      · exact .of_items hw (fun item hi => ih item hi) (fun item hi inner => .cell hi) (by omega)
      · cases h
  | tuple items ih =>
    rw [write] at h
    have hn : (tuple items).nesting = nestingAll items + 1 := rfl
    refine .of_descend h (by omega) fun below _ h => ?_
    rcases bind_eq_error.mp h with hw | ⟨parts, -, h⟩
    · exact .of_items hw (fun item hi => ih item hi) (fun item hi inner => .component hi) (by omega)
    · cases h
  | dict entries ih =>
    rw [write] at h
    have hn : (dict entries).nesting = nestingEntries entries + 1 := rfl
    refine .of_descend h (by omega) fun below _ h => ?_
    rcases bind_eq_error.mp h with hw | ⟨parts, -, h⟩
    · exact .of_entries hw (fun entry he => ih entry he) (fun entry he inner => .entry he) (by omega)
    · cases h
  | function name =>
    cases h
    exact .flaw .here .function
  | _ => cases h

/-- A value is written exactly if everything is right with it, and a refusal names something that is
wrong with it. -/
theorem encode_refusals (config : Config) (v : Value) :
    ((∃ text, v.encode config = .ok text) ↔ Writable config v) ∧
      ∀ e, v.encode config = .error e → Violation config config.maxDepth v e := by
  refine ⟨exists_encode_iff.trans writable_iff.symm, fun e h => ?_⟩
  rcases bind_eq_error.mp h with hw | ⟨text, -, h⟩
  · exact violation_of_write hw
  · cases h

/-- Of several violations, the shape of a matrix is reported before those of its items. -/
example : (matrix ⟨1, 2, [function "f"]⟩).encode ⟨.int32, 4, "!"⟩ = .error (.matrixShape 1 2 1) :=
  rfl

end Value

end LiteralBridge
