import LiteralBridge.Encode
import LiteralBridge.Proofs.Literal.Tree

/-! # Values as trees

Properties of a whole value, and induction over it with a hypothesis for every item of a container.
`Value.literal` is the literal that a value is written as. -/

namespace LiteralBridge.Value

/-! ## Induction -/

section Induction

variable {motive : Value → Prop} (null : motive null) (undefined : motive undefined)
  (boolean : ∀ b, motive (boolean b)) (integer : ∀ i, motive (integer i))
  (float : ∀ x, motive (float x)) (string : ∀ s, motive (string s)) (enum : ∀ s, motive (enum s))
  (enumSet : ∀ names, motive (enumSet names))
  (array : ∀ items, (∀ item ∈ items, motive item) → motive (array items))
  (matrix : ∀ rows cols items, (∀ item ∈ items, motive item) → motive (matrix ⟨rows, cols, items⟩))
  (tuple : ∀ items, (∀ item ∈ items, motive item) → motive (tuple items))
  (dict : ∀ entries, (∀ entry ∈ entries, motive entry.2) → motive (dict entries))
  (handle : ∀ h, motive (handle h)) (function : ∀ name, motive (function name))
include null undefined boolean integer float string enum enumSet array matrix tuple dict handle
  function

@[elab_as_elim, induction_eliminator]
theorem tree_induction (v : Value) : motive v := by
  refine @Value.rec motive (fun items => ∀ item ∈ items, motive item)
    (fun m => ∀ item ∈ m.items, motive item) (fun entries => ∀ entry ∈ entries, motive entry.2)
    (fun entry => motive entry.2) null undefined boolean integer float string enum enumSet array
    ?_ tuple dict handle function ?_ ?_ ?_ ?_ ?_ ?_ v
  · intro m hitems
    exact matrix m.rows m.cols m.items hitems
  · exact List.forall_mem_nil _
  · intro item rest hitem hrest
    exact List.forall_mem_cons.mpr ⟨hitem, hrest⟩
  · intro rows cols items hitems
    exact hitems
  · exact List.forall_mem_nil _
  · intro entry rest hentry hrest
    exact List.forall_mem_cons.mpr ⟨hentry, hrest⟩
  · intro _ _ hvalue
    exact hvalue

end Induction

/-! ## Nodes -/

mutual

/-- The value and all values in it have a property. -/
def Everywhere (p : Value → Prop) : Value → Prop
  | array items => p (array items) ∧ EverywhereAll p items
  | matrix ⟨rows, cols, items⟩ => p (matrix ⟨rows, cols, items⟩) ∧ EverywhereAll p items
  | tuple items => p (tuple items) ∧ EverywhereAll p items
  | dict entries => p (dict entries) ∧ EverywhereEntries p entries
  | v => p v

def EverywhereAll (p : Value → Prop) : List Value → Prop
  | [] => True
  | v :: rest => v.Everywhere p ∧ EverywhereAll p rest

def EverywhereEntries (p : Value → Prop) : List (String × Value) → Prop
  | [] => True
  | (_, v) :: rest => v.Everywhere p ∧ EverywhereEntries p rest

end

section Everywhere

variable {p : Value → Prop}

theorem everywhereAll_iff {items : List Value} :
    EverywhereAll p items ↔ ∀ item ∈ items, item.Everywhere p := by
  induction items with
  | nil => simp [EverywhereAll]
  | cons v rest ih => simp only [EverywhereAll, ih, List.forall_mem_cons]

theorem everywhereEntries_iff {entries : List (String × Value)} :
    EverywhereEntries p entries ↔ ∀ entry ∈ entries, entry.2.Everywhere p := by
  induction entries with
  | nil => simp [EverywhereEntries]
  | cons entry rest ih =>
    obtain ⟨key, v⟩ := entry
    simp only [EverywhereEntries, ih, List.forall_mem_cons]

end Everywhere

/-- What two properties give of every value, they give everywhere. -/
theorem Everywhere.imp₂ {p q r : Value → Prop} {v : Value} (hp : v.Everywhere p)
    (hq : v.Everywhere q) (h : ∀ w, p w → q w → r w) : v.Everywhere r := by
  have all {items : List Value}
      (ih : ∀ item ∈ items, item.Everywhere p → item.Everywhere q → item.Everywhere r)
      (hp : EverywhereAll p items) (hq : EverywhereAll q items) : EverywhereAll r items :=
    everywhereAll_iff.mpr fun item hi =>
      ih item hi (everywhereAll_iff.mp hp item hi) (everywhereAll_iff.mp hq item hi)
  induction v with
  | array items ih => exact ⟨h _ hp.1 hq.1, all ih hp.2 hq.2⟩
  | matrix rows cols items ih => exact ⟨h _ hp.1 hq.1, all ih hp.2 hq.2⟩
  | tuple items ih => exact ⟨h _ hp.1 hq.1, all ih hp.2 hq.2⟩
  | dict entries ih =>
    refine ⟨h _ hp.1 hq.1, everywhereEntries_iff.mpr fun entry he => ?_⟩
    exact ih entry he (everywhereEntries_iff.mp hp.2 entry he)
      (everywhereEntries_iff.mp hq.2 entry he)
  | _ => exact h _ hp hq

theorem Everywhere.imp {p q : Value → Prop} {v : Value} (hp : v.Everywhere p)
    (h : ∀ w, p w → q w) : v.Everywhere q :=
  hp.imp₂ hp fun w hw _ => h w hw

/-- A value occurs in another if it is that value, or occurs in one of its items or entries. -/
inductive Occurs (part : Value) : Value → Prop
  | here : Occurs part part
  | item {items : List Value} {item : Value} (hi : item ∈ items) (h : Occurs part item) :
    Occurs part (array items)
  | cell {m : Matrix Value} {item : Value} (hi : item ∈ m.items) (h : Occurs part item) :
    Occurs part (matrix m)
  | component {items : List Value} {item : Value} (hi : item ∈ items) (h : Occurs part item) :
    Occurs part (tuple items)
  | entry {entries : List (String × Value)} {entry : String × Value} (he : entry ∈ entries)
    (h : Occurs part entry.2) : Occurs part (dict entries)

theorem Everywhere.self {p : Value → Prop} {v : Value} (h : v.Everywhere p) : p v := by
  cases v with
  | array items => exact h.1
  | matrix m => exact h.1
  | tuple items => exact h.1
  | dict entries => exact h.1
  | _ => exact h

/-- What holds everywhere in a value is what holds of all that occurs in it. -/
theorem everywhere_iff_occurs {p : Value → Prop} {v : Value} :
    v.Everywhere p ↔ ∀ part, Occurs part v → p part := by
  constructor
  · intro h part hpart
    induction hpart with
    | here => exact h.self
    | item hi _ ih => exact ih (everywhereAll_iff.mp h.2 _ hi)
    | cell hi _ ih => exact ih (everywhereAll_iff.mp h.2 _ hi)
    | component hi _ ih => exact ih (everywhereAll_iff.mp h.2 _ hi)
    | entry he _ ih => exact ih (everywhereEntries_iff.mp h.2 _ he)
  · intro h
    induction v with
    | array items ih =>
      exact ⟨h _ .here, everywhereAll_iff.mpr fun item hi =>
        ih item hi fun part hpart => h part (.item hi hpart)⟩
    | matrix rows cols items ih =>
      exact ⟨h _ .here, everywhereAll_iff.mpr fun item hi =>
        ih item hi fun part hpart => h part (.cell hi hpart)⟩
    | tuple items ih =>
      exact ⟨h _ .here, everywhereAll_iff.mpr fun item hi =>
        ih item hi fun part hpart => h part (.component hi hpart)⟩
    | dict entries ih =>
      exact ⟨h _ .here, everywhereEntries_iff.mpr fun entry he =>
        ih entry he fun part hpart => h part (.entry he hpart)⟩
    | _ => exact h _ .here

/-- Neither an object of the host nor a callback. -/
def IsData : Value → Prop
  | handle _ | function _ => False
  | _ => True

/-- Not an object of the host. -/
def IsNotHandle : Value → Prop
  | handle _ => False
  | _ => True

/-! ## Nesting -/

mutual

/-- The containers on the deepest path, with the rows of a matrix among them. The set without names
is none. -/
def nesting : Value → Nat
  | enumSet names => if names.names.isEmpty then 0 else 1
  | array items | tuple items => nestingAll items + 1
  | matrix ⟨rows, _, items⟩ => if rows = 0 then 1 else nestingAll items + 2
  | dict entries => nestingEntries entries + 1
  | _ => 0

def nestingAll : List Value → Nat
  | [] => 0
  | v :: rest => max v.nesting (nestingAll rest)

def nestingEntries : List (String × Value) → Nat
  | [] => 0
  | (_, v) :: rest => max v.nesting (nestingEntries rest)

end

theorem nestingAll_le_iff {items : List Value} {d : Nat} :
    nestingAll items ≤ d ↔ ∀ item ∈ items, item.nesting ≤ d := by
  induction items with
  | nil => simp [nestingAll]
  | cons v rest ih => simp only [nestingAll, Nat.max_le, ih, List.forall_mem_cons]

theorem nestingEntries_le_iff {entries : List (String × Value)} {d : Nat} :
    nestingEntries entries ≤ d ↔ ∀ entry ∈ entries, entry.2.nesting ≤ d := by
  induction entries with
  | nil => simp [nestingEntries]
  | cons entry rest ih =>
    obtain ⟨key, v⟩ := entry
    simp only [nestingEntries, Nat.max_le, ih, List.forall_mem_cons]

/-! ## The literal of a value -/

mutual

/-- The literal that a value is written as. What a handle or a function gives is of no account. -/
def literal : Value → Literal
  | null | undefined => .none
  | boolean b => .bool b
  | integer i => .int i
  | float x => .float x
  | string s | enum s => .str s
  | enumSet names => .set (names.names.map .str)
  | array items => .list (literalAll items)
  | matrix ⟨rows, cols, items⟩ =>
    .list ((Matrix.rowSlices ⟨rows, cols, literalAll items⟩).map .list)
  | tuple items => .tuple (literalAll items)
  | dict entries => .dict (literalEntries entries)
  | handle _ | function _ => .none

def literalAll : List Value → List Literal
  | [] => []
  | v :: rest => v.literal :: literalAll rest

def literalEntries : List (String × Value) → List (Literal × Literal)
  | [] => []
  | (key, v) :: rest => (.str key, v.literal) :: literalEntries rest

end

theorem literalAll_eq_map (items : List Value) : literalAll items = items.map literal := by
  induction items with
  | nil => rfl
  | cons v rest ih => rw [literalAll, ih, List.map_cons]

theorem literalEntries_eq_map (entries : List (String × Value)) :
    literalEntries entries = entries.map fun entry => (.str entry.1, entry.2.literal) := by
  induction entries with
  | nil => rfl
  | cons entry rest ih =>
    obtain ⟨key, v⟩ := entry
    rw [literalEntries, ih, List.map_cons]

/-! ## What comes back of a value -/

mutual

/-- The value with every null given and with one NaN. -/
def canonical : Value → Value
  | undefined => null
  | float x => float x.canonical
  | array items => array (canonicalAll items)
  | matrix ⟨rows, cols, items⟩ => matrix ⟨rows, cols, canonicalAll items⟩
  | tuple items => tuple (canonicalAll items)
  | dict entries => dict (canonicalEntries entries)
  | v => v

def canonicalAll : List Value → List Value
  | [] => []
  | v :: rest => v.canonical :: canonicalAll rest

def canonicalEntries : List (String × Value) → List (String × Value)
  | [] => []
  | (key, v) :: rest => (key, v.canonical) :: canonicalEntries rest

end

theorem canonicalAll_eq_map (items : List Value) : canonicalAll items = items.map canonical := by
  induction items with
  | nil => rfl
  | cons v rest ih => rw [canonicalAll, ih, List.map_cons]

theorem canonicalEntries_eq_map (entries : List (String × Value)) :
    canonicalEntries entries = entries.map fun entry => (entry.1, entry.2.canonical) := by
  induction entries with
  | nil => rfl
  | cons entry rest ih =>
    obtain ⟨key, v⟩ := entry
    rw [canonicalEntries, ih, List.map_cons]

/-! ## Order -/

theorem orderedItems_iff {items : List Value} :
    OrderedItems items ↔ ∀ item ∈ items, item.Ordered := by
  induction items with
  | nil => simp [OrderedItems]
  | cons v rest ih => simp only [OrderedItems, ih, List.forall_mem_cons]

theorem orderedEntries_iff {entries : List (String × Value)} :
    OrderedEntries entries ↔ ∀ entry ∈ entries, entry.2.Ordered := by
  induction entries with
  | nil => simp [OrderedEntries]
  | cons entry rest ih =>
    obtain ⟨key, v⟩ := entry
    simp only [OrderedEntries, ih, List.forall_mem_cons]

end LiteralBridge.Value
