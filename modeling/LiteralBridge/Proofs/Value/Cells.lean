import Mathlib
import LiteralBridge.Value.Matrix

/-! # Cells and their items

The shape of a matrix bounds the row and the column of a cell, but not the position of the cell among
the items, which is computed as a word. So a shape of more cells than a word has values has cells whose
positions are too large, and the program stops where one of these is asked for. All other cells are
given the item at their position and nothing else (`get?_exact_iff`). -/

namespace LiteralBridge

theorem Word.size_eq : Word.size = 2 ^ 64 :=
  rfl

namespace Matrix

variable {α : Type} {m : Matrix α} {row col : Nat}

/-- The position of a cell among the items, as a number of any size. -/
def position (m : Matrix α) (row col : Nat) : Nat :=
  row * m.cols + col

/-- There is an answer for a cell. It is given an item exactly if it is a cell of the shape and the
items reach to its position, and it is given the item that stands there. -/
def ExactAt (m : Matrix α) (row col : Nat) : Prop :=
  ∃ found, m.get? row col = .ok found ∧
    ∀ x, found = some x ↔ row < m.rows ∧ col < m.cols ∧ m.items[m.position row col]? = some x

/-- The position of a cell of the shape is too large for a word. -/
def Exceeds (m : Matrix α) (row col : Nat) : Prop :=
  row < m.rows ∧ col < m.cols ∧ Word.size ≤ m.position row col

/-! ## Positions -/

theorem place_eq (m : Matrix α) (row col : Nat) :
    m.place row col = Word.ofNat (m.position row col) :=
  Word.mul_bind_add row m.cols col

theorem position_lt (hr : row < m.rows) (hc : col < m.cols) :
    m.position row col < m.rows * m.cols := by
  have hrow : (row + 1) * m.cols ≤ m.rows * m.cols := Nat.mul_le_mul_right _ hr
  rw [Nat.succ_mul] at hrow
  rw [position]
  omega

/-- Every number below the number of cells is the position of a cell. -/
theorem exists_position {n : Nat} (h : n < m.rows * m.cols) :
    ∃ row col, row < m.rows ∧ col < m.cols ∧ m.position row col = n := by
  have hcols : 0 < m.cols := Nat.pos_of_ne_zero fun h0 => by simp [h0] at h
  exact ⟨n / m.cols, n % m.cols, Nat.div_lt_of_lt_mul (Nat.mul_comm .. ▸ h), Nat.mod_lt n hcols,
    Nat.div_add_mod' n m.cols⟩

/-- A shape has a cell whose position is too large exactly if it has more cells than a word has values. -/
theorem exists_exceeds_iff : (∃ row col, m.Exceeds row col) ↔ Word.size < m.rows * m.cols := by
  constructor
  · rintro ⟨row, col, hr, hc, hle⟩
    exact Nat.lt_of_le_of_lt hle (position_lt hr hc)
  · intro hlt
    obtain ⟨row, col, hr, hc, hp⟩ := exists_position hlt
    exact ⟨row, col, hr, hc, Nat.le_of_eq hp.symm⟩

/-! ## Items -/

theorem get?_of_not_mem (h : ¬ (row < m.rows ∧ col < m.cols)) : m.get? row col = .ok none := by
  rw [get?, if_pos (by omega)]

theorem get?_of_position_lt (hr : row < m.rows) (hc : col < m.cols)
    (hp : m.position row col < Word.size) : m.get? row col = .ok m.items[m.position row col]? := by
  rw [get?, if_neg (by omega), place_eq, Word.ofNat_of_lt hp]
  rfl

theorem get?_of_exceeds (h : m.Exceeds row col) : m.get? row col = .error .overflow := by
  obtain ⟨hr, hc, hle⟩ := h
  rw [get?, if_neg (by omega), place_eq, Word.ofNat_of_le hle]
  rfl

theorem exactAt_of_not_exceeds (h : ¬ m.Exceeds row col) : m.ExactAt row col := by
  by_cases hs : row < m.rows ∧ col < m.cols
  · have hp : m.position row col < Word.size := Nat.not_le.mp fun hle => h ⟨hs.1, hs.2, hle⟩
    refine ⟨_, get?_of_position_lt hs.1 hs.2 hp, fun x => ?_⟩
    simp only [hs, true_and]
  · refine ⟨none, get?_of_not_mem hs, fun x => iff_of_false nofun ?_⟩
    exact fun hx => hs ⟨hx.1, hx.2.1⟩

theorem exactAt_iff : m.ExactAt row col ↔ ¬ m.Exceeds row col := by
  constructor
  · rintro ⟨found, hget, -⟩ he
    rw [get?_of_exceeds he] at hget
    cases hget
  · exact exactAt_of_not_exceeds

/-- Whether a cell is given the item at its position. The only cells that are not are those whose
positions are too large for a word, for which there is no answer at all. There is no such cell exactly
if the shape has at most as many cells as a word has values. -/
theorem get?_exact_iff (m : Matrix α) :
    (∀ row col, (m.ExactAt row col ↔ ¬ m.Exceeds row col) ∧
      (m.get? row col = .error .overflow ↔ m.Exceeds row col)) ∧
    ((∀ row col, m.ExactAt row col) ↔ m.rows * m.cols ≤ 2 ^ 64) := by
  refine ⟨fun row col => ⟨exactAt_iff, fun hget => ?_, get?_of_exceeds⟩, ?_⟩
  · by_contra hne
    obtain ⟨found, hfound, -⟩ := exactAt_of_not_exceeds hne
    rw [hget] at hfound
    cases hfound
  · calc (∀ row col, m.ExactAt row col)
        ↔ ∀ row col, ¬ m.Exceeds row col := forall₂_congr fun _ _ => exactAt_iff
      _ ↔ ¬ ∃ row col, m.Exceeds row col := by simp only [not_exists]
      _ ↔ m.rows * m.cols ≤ 2 ^ 64 := by rw [exists_exceeds_iff, Nat.not_lt, Word.size_eq]

/-- In three rows of half as many columns as a word has values, the third row begins at a position that
is too large. There is one item, so that the cell should be given none. -/
theorem get?_third_row :
    let m : Matrix Value := ⟨3, 0x8000000000000000, [.integer 7]⟩
    m.get? 2 0 = .error .overflow ∧ m.position 2 0 = 2 ^ 64 ∧ m.items.length = 1 ∧
      ¬ m.ExactAt 2 0 := by
  intro m
  have hposition : m.position 2 0 = 2 ^ 64 := by decide
  have hget : m.get? 2 0 = .error .overflow :=
    get?_of_exceeds ⟨by decide, by decide, Nat.le_of_eq hposition.symm⟩
  refine ⟨hget, hposition, rfl, ?_⟩
  rintro ⟨found, hfound, -⟩
  rw [hget] at hfound
  cases hfound

end Matrix

end LiteralBridge
