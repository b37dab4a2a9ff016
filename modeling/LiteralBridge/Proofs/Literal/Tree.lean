import LiteralBridge.Literal.Render

/-! # Literals as trees

Properties of a whole literal, and induction over it with a hypothesis for every item of a
container. -/

namespace LiteralBridge

/-- The float itself, or for every NaN the one that is read back. -/
def Binary64.canonical (x : Binary64) : Binary64 :=
  if x.isNaN then nan else x

namespace Literal

/-! ## Induction -/

section Induction

variable {motive : Literal → Prop} (none : motive none) (bool : ∀ b, motive (bool b))
  (int : ∀ i, motive (int i)) (float : ∀ x, motive (float x)) (str : ∀ s, motive (str s))
  (list : ∀ items, (∀ item ∈ items, motive item) → motive (list items))
  (tuple : ∀ items, (∀ item ∈ items, motive item) → motive (tuple items))
  (set : ∀ items, (∀ item ∈ items, motive item) → motive (set items))
  (dict : ∀ entries, (∀ entry ∈ entries, motive entry.1 ∧ motive entry.2) → motive (dict entries))
include none bool int float str list tuple set dict

@[elab_as_elim, induction_eliminator]
theorem tree_induction (literal : Literal) : motive literal := by
  refine @Literal.rec motive (fun items => ∀ item ∈ items, motive item)
    (fun entries => ∀ entry ∈ entries, motive entry.1 ∧ motive entry.2)
    (fun entry => motive entry.1 ∧ motive entry.2)
    none bool int float str list tuple set dict ?_ ?_ ?_ ?_ ?_ literal
  · exact List.forall_mem_nil _
  · intro item rest hitem hrest
    exact List.forall_mem_cons.mpr ⟨hitem, hrest⟩
  · exact List.forall_mem_nil _
  · intro entry rest hentry hrest
    exact List.forall_mem_cons.mpr ⟨hentry, hrest⟩
  · intro _ _ hkey hvalue
    exact ⟨hkey, hvalue⟩

end Induction

/-! ## Depth -/

mutual

/-- The containers on the deepest path. The set without items is written without brackets. -/
def depth : Literal → Nat
  | list items | tuple items => depthAll items + 1
  | set items => if items.isEmpty then 0 else depthAll items + 1
  | dict entries => depthEntries entries + 1
  | _ => 0

def depthAll : List Literal → Nat
  | [] => 0
  | literal :: rest => max literal.depth (depthAll rest)

def depthEntries : List (Literal × Literal) → Nat
  | [] => 0
  | (key, value) :: rest => max (max key.depth value.depth) (depthEntries rest)

end

theorem depthAll_le_iff {items : List Literal} {d : Nat} :
    depthAll items ≤ d ↔ ∀ literal ∈ items, literal.depth ≤ d := by
  induction items with
  | nil => simp [depthAll]
  | cons literal rest ih => simp only [depthAll, Nat.max_le, ih, List.forall_mem_cons]

theorem depthEntries_le_iff {entries : List (Literal × Literal)} {d : Nat} :
    depthEntries entries ≤ d ↔ ∀ entry ∈ entries, entry.1.depth ≤ d ∧ entry.2.depth ≤ d := by
  induction entries with
  | nil => simp [depthEntries]
  | cons entry rest ih =>
    obtain ⟨key, value⟩ := entry
    simp only [depthEntries, Nat.max_le, ih, List.forall_mem_cons]

theorem depthAll_map {f : Literal → Literal} {items : List Literal}
    (h : ∀ item ∈ items, (f item).depth = item.depth) : depthAll (items.map f) = depthAll items := by
  induction items with
  | nil => rfl
  | cons item rest ih =>
    obtain ⟨hitem, hrest⟩ := List.forall_mem_cons.mp h
    rw [List.map_cons, depthAll, depthAll, hitem, ih hrest]

theorem depthEntries_map {f : Literal → Literal} {entries : List (Literal × Literal)}
    (h : ∀ entry ∈ entries, (f entry.1).depth = entry.1.depth ∧ (f entry.2).depth = entry.2.depth) :
    depthEntries (entries.map fun entry => (f entry.1, f entry.2)) = depthEntries entries := by
  induction entries with
  | nil => rfl
  | cons entry rest ih =>
    obtain ⟨⟨hkey, hvalue⟩, hrest⟩ := List.forall_mem_cons.mp h
    rw [List.map_cons, depthEntries, depthEntries, hkey, hvalue, ih hrest]

/-! ## Integers -/

mutual

/-- All integers in the literal have 128 bits. -/
def Fits : Literal → Prop
  | int i => FitsInt i
  | list items | tuple items | set items => FitsAll items
  | dict entries => FitsEntries entries
  | _ => True

def FitsAll : List Literal → Prop
  | [] => True
  | literal :: rest => literal.Fits ∧ FitsAll rest

def FitsEntries : List (Literal × Literal) → Prop
  | [] => True
  | (key, value) :: rest => (key.Fits ∧ value.Fits) ∧ FitsEntries rest

end

theorem fitsAll_iff {items : List Literal} : FitsAll items ↔ ∀ literal ∈ items, literal.Fits := by
  induction items with
  | nil => simp [FitsAll]
  | cons literal rest ih => simp only [FitsAll, ih, List.forall_mem_cons]

theorem fitsEntries_iff {entries : List (Literal × Literal)} :
    FitsEntries entries ↔ ∀ entry ∈ entries, entry.1.Fits ∧ entry.2.Fits := by
  induction entries with
  | nil => simp [FitsEntries]
  | cons entry rest ih =>
    obtain ⟨key, value⟩ := entry
    simp only [FitsEntries, ih, List.forall_mem_cons]

/-! ## NaN -/

mutual

/-- The literal with every NaN in it replaced by the one that is read back. -/
def canonical : Literal → Literal
  | float x => float x.canonical
  | list items => list (canonicalAll items)
  | tuple items => tuple (canonicalAll items)
  | set items => set (canonicalAll items)
  | dict entries => dict (canonicalEntries entries)
  | literal => literal

def canonicalAll : List Literal → List Literal
  | [] => []
  | literal :: rest => literal.canonical :: canonicalAll rest

def canonicalEntries : List (Literal × Literal) → List (Literal × Literal)
  | [] => []
  | (key, value) :: rest => (key.canonical, value.canonical) :: canonicalEntries rest

end

theorem canonicalAll_eq_map (items : List Literal) : canonicalAll items = items.map canonical := by
  induction items with
  | nil => rfl
  | cons literal rest ih => rw [canonicalAll, ih, List.map_cons]

theorem canonicalEntries_eq_map (entries : List (Literal × Literal)) :
    canonicalEntries entries = entries.map fun entry => (entry.1.canonical, entry.2.canonical) := by
  induction entries with
  | nil => rfl
  | cons entry rest ih =>
    obtain ⟨key, value⟩ := entry
    rw [canonicalEntries, ih, List.map_cons]

/-- Which NaN stands in a literal has no part in its depth. -/
theorem depth_canonical (literal : Literal) : literal.canonical.depth = literal.depth := by
  induction literal with
  | none => rfl
  | bool b => rfl
  | int i => rfl
  | float x => rfl
  | str s => rfl
  | list items ih => simp only [canonical, depth, canonicalAll_eq_map, depthAll_map ih]
  | tuple items ih => simp only [canonical, depth, canonicalAll_eq_map, depthAll_map ih]
  | set items ih =>
    simp only [canonical, depth, canonicalAll_eq_map, depthAll_map ih, List.isEmpty_map]
  | dict entries ih => simp only [canonical, depth, canonicalEntries_eq_map, depthEntries_map ih]

/-! ## Text -/

theorem renderAll_eq_map (items : List Literal) : renderAll items = items.map render := by
  induction items with
  | nil => rfl
  | cons literal rest ih => rw [renderAll, ih, List.map_cons]

theorem renderEntries_eq_map (entries : List (Literal × Literal)) :
    renderEntries entries =
      entries.map fun entry => renderEntry entry.1.render entry.2.render := by
  induction entries with
  | nil => rfl
  | cons entry rest ih =>
    obtain ⟨key, value⟩ := entry
    rw [renderEntries, ih, List.map_cons]

/-- All NaN are written in one way. -/
theorem renderFloat_canonical (x : Binary64) : renderFloat x.canonical = renderFloat x := by
  unfold Binary64.canonical
  split
  · next h => rw [renderFloat, renderFloat, if_pos h, if_pos (by decide)]
  · rfl

theorem render_canonical (literal : Literal) : literal.canonical.render = literal.render := by
  have all {items : List Literal} (ih : ∀ item ∈ items, item.canonical.render = item.render) :
      renderAll (canonicalAll items) = renderAll items := by
    rw [renderAll_eq_map, renderAll_eq_map, canonicalAll_eq_map, List.map_map]
    exact List.map_congr_left ih
  induction literal with
  | none => rfl
  | bool b => rfl
  | int i => rfl
  | float x => exact renderFloat_canonical x
  | str s => rfl
  | list items ih => rw [canonical, render, render, all ih]
  | tuple items ih => rw [canonical, render, render, all ih]
  | set items ih => rw [canonical, render, render, all ih]
  | dict entries ih =>
    rw [canonical, render, render, renderEntries_eq_map, renderEntries_eq_map,
      canonicalEntries_eq_map, List.map_map]
    congr 1
    refine List.map_congr_left fun entry he => ?_
    rw [Function.comp_apply, (ih entry he).1, (ih entry he).2]

end Literal

end LiteralBridge
