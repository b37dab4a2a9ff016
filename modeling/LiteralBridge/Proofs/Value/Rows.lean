import LiteralBridge.Value.Matrix

/-! # Rows of a matrix

As far as the items reach, `chunks` cuts them into rows of the given length without a loss: the row with
a number is there exactly if the items reach to its end (`getElem?_chunks`). -/

namespace LiteralBridge.Matrix

variable {α β : Type} {rows cols : Nat} {items : List α}

theorem chunks_succ (h : (rows + 1) * cols ≤ items.length) :
    chunks cols (rows + 1) items = items.take cols :: chunks cols rows (items.drop cols) ∧
      rows * cols ≤ (items.drop cols).length := by
  rw [Nat.succ_mul] at h
  refine ⟨if_neg (by omega), ?_⟩
  rw [List.length_drop]
  omega

theorem length_chunks (h : rows * cols ≤ items.length) : (chunks cols rows items).length = rows := by
  induction rows generalizing items with
  | zero => rfl
  | succ rows ih =>
    obtain ⟨hc, hrest⟩ := chunks_succ h
    rw [hc, List.length_cons, ih hrest]

theorem flatten_chunks (h : rows * cols = items.length) : (chunks cols rows items).flatten = items := by
  induction rows generalizing items with
  | zero =>
    rw [Nat.zero_mul] at h
    exact (List.length_eq_zero_iff.mp h.symm).symm
  | succ rows ih =>
    obtain ⟨hc, -⟩ := chunks_succ (Nat.le_of_eq h)
    have hrest : rows * cols = (items.drop cols).length := by
      rw [List.length_drop, ← h, Nat.succ_mul, Nat.add_sub_cancel]
    rw [hc, List.flatten_cons, ih hrest, List.take_append_drop]

theorem length_of_mem_chunks {row : List α} (h : row ∈ chunks cols rows items) :
    row.length = cols := by
  induction rows generalizing items with
  | zero => simp [chunks] at h
  | succ rows ih =>
    by_cases hl : items.length < cols
    · simp [chunks, hl] at h
    · rw [chunks, if_neg hl] at h
      rcases List.mem_cons.mp h with rfl | h
      · rw [List.length_take]
        omega
      · exact ih h

theorem getElem?_chunks (rows cols : Nat) (items : List α) (r : Nat) :
    (chunks cols rows items)[r]? =
      if r < rows ∧ (r + 1) * cols ≤ items.length then some ((items.drop (r * cols)).take cols)
      else none := by
  induction rows generalizing items r with
  | zero => simp [chunks]
  | succ rows ih =>
    by_cases hl : items.length < cols
    · have hle : cols ≤ (r + 1) * cols := Nat.le_mul_of_pos_left cols (Nat.succ_pos r)
      rw [chunks, if_pos hl, List.getElem?_nil, if_neg fun h => ?_]
      omega
    rw [chunks, if_neg hl]
    cases r with
    | zero => simp [Nat.le_of_not_lt hl]
    | succ r =>
      have hr : (r + 1 + 1) * cols = (r + 1) * cols + cols := Nat.succ_mul _ _
      have hd : cols + r * cols = (r + 1) * cols := by rw [Nat.succ_mul, Nat.add_comm]
      have hiff : r < rows ∧ (r + 1) * cols ≤ items.length - cols ↔
          r + 1 < rows + 1 ∧ (r + 1 + 1) * cols ≤ items.length := by omega
      simp only [List.getElem?_cons_succ, ih, List.length_drop, List.drop_drop, hd, hiff]

/-- Nothing is skipped before the place where the rows end. -/
theorem flatten_chunks_eq_take (rows cols : Nat) (items : List α) :
    (chunks cols rows items).flatten = items.take ((chunks cols rows items).length * cols) := by
  induction rows generalizing items with
  | zero => simp [chunks]
  | succ rows ih =>
    by_cases hl : items.length < cols
    · simp [chunks, hl]
    · rw [chunks, if_neg hl, List.flatten_cons, ih, List.length_cons, Nat.succ_mul, Nat.add_comm,
        List.take_add]

theorem length_flatten_of_forall {lists : List (List α)} (h : ∀ row ∈ lists, row.length = cols) :
    lists.flatten.length = lists.length * cols := by
  induction lists with
  | nil => simp
  | cons row rest ih =>
    obtain ⟨hrow, hrest⟩ := List.forall_mem_cons.mp h
    rw [List.flatten_cons, List.length_append, hrow, ih hrest, List.length_cons, Nat.succ_mul,
      Nat.add_comm]

/-- Rows of one length are cut again out of what they are together. -/
theorem chunks_flatten {lists : List (List α)} (h : ∀ row ∈ lists, row.length = cols) :
    chunks cols lists.length lists.flatten = lists := by
  induction lists with
  | nil => rfl
  | cons row rest ih =>
    obtain ⟨hrow, hrest⟩ := List.forall_mem_cons.mp h
    have hl : ¬ (row ++ rest.flatten).length < cols := by
      rw [List.length_append, hrow]
      omega
    rw [List.length_cons, List.flatten_cons, chunks, if_neg hl, ← hrow, List.take_left,
      List.drop_left, hrow, ih hrest]

theorem chunks_map (f : α → β) :
    chunks cols rows (items.map f) = (chunks cols rows items).map fun row => row.map f := by
  induction rows generalizing items with
  | zero => rfl
  | succ rows ih =>
    by_cases hl : items.length < cols
    · simp [chunks, hl]
    · simp only [chunks, List.length_map, if_neg hl, List.map_cons, ← List.map_take, ← List.map_drop,
        ih]

end LiteralBridge.Matrix
