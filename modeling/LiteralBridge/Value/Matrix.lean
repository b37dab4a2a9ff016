import LiteralBridge.Value.Basic
import LiteralBridge.Word

/-!
# Rows and cells of a matrix

A matrix is well formed if its items fill its shape. `rowSlices` cuts the items into rows and stops
where they run out. The position of a cell is computed as a word, which a large shape can exceed.
-/

namespace LiteralBridge.Matrix

variable {α : Type u}

/-- The items fill the shape. -/
def isWellFormed (m : Matrix α) : Bool :=
  m.rows * m.cols == m.items.length

/-- The matrix with the given rows, unless they differ in length. -/
def ofRows? (rows : List (List α)) : Option (Matrix α) :=
  let cols := match rows with
    | [] => 0
    | row :: _ => row.length
  if rows.all (·.length == cols) then some ⟨rows.length, cols, rows.flatten⟩ else none

/-- The position of a cell among the items, as a word. -/
def place (m : Matrix α) (row col : Nat) : Except Panic Nat := do
  Word.add (← Word.mul row m.cols) col

/-- The item of a cell, if the shape has the cell and the items reach to it. -/
def get? (m : Matrix α) (row col : Nat) : Except Panic (Option α) :=
  if m.rows ≤ row ∨ m.cols ≤ col then .ok none
  else (m.place row col).map fun i => m.items[i]?

/-- The first `count` rows of `cols` items each, as far as the items reach. -/
def chunks (cols : Nat) : (count : Nat) → List α → List (List α)
  | 0, _ => []
  | count + 1, items =>
    if items.length < cols then [] else items.take cols :: chunks cols count (items.drop cols)

/-- The rows, up to the first that the items do not fill. -/
def rowSlices (m : Matrix α) : List (List α) :=
  chunks m.cols m.rows m.items

end LiteralBridge.Matrix
