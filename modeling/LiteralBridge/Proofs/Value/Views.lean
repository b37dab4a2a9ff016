import LiteralBridge.Proofs.Literal.Readers
import LiteralBridge.Proofs.Value.Cells
import LiteralBridge.Proofs.Value.Rows

/-! # A matrix as items, rows and cells

A well-formed matrix is the same in all its views: its rows are its items in order, its cells are those
of its rows, and it can be made of its rows again (`ViewsAgree`). Of a matrix that is not well formed,
the rows are those that its items fill. Rows are cut without a number that a word cannot hold, whatever
the shape is (`views_agree`). -/

namespace LiteralBridge.Matrix

variable {α : Type} {m : Matrix α}

/-- The sizes that occur: a shape is given in words, and there are fewer items than half of a word
counts. -/
structure Fits (m : Matrix α) : Prop where
  rows_lt : m.rows < 2 ^ 64
  cols_lt : m.cols < 2 ^ 64
  length_lt : m.items.length < 2 ^ 63

theorem isWellFormed_iff : m.isWellFormed = true ↔ m.rows * m.cols = m.items.length := by
  rw [isWellFormed, beq_iff_eq]

/-! ## Rows, by their numbers -/

def row (m : Matrix α) (r : Nat) : List α :=
  (m.items.drop (r * m.cols)).take m.cols

theorem getElem?_rowSlices (r : Nat) :
    m.rowSlices[r]? =
      if r < m.rows ∧ (r + 1) * m.cols ≤ m.items.length then some (m.row r) else none :=
  getElem?_chunks m.rows m.cols m.items r

theorem length_of_mem_rowSlices : ∀ row ∈ m.rowSlices, row.length = m.cols :=
  fun _ => length_of_mem_chunks

/-- The rows are as many as the shape has and the items fill. -/
theorem rowSlices_eq_map (h : 0 < m.cols) :
    m.rowSlices = (List.range (min m.rows (m.items.length / m.cols))).map m.row := by
  apply List.ext_getElem?
  intro r
  rw [getElem?_rowSlices, List.getElem?_map]
  by_cases hr : r < min m.rows (m.items.length / m.cols)
  · have hfull := (Nat.le_div_iff_mul_le h).mp (Nat.succ_le_of_lt (Nat.lt_min.mp hr).2)
    rw [if_pos ⟨(Nat.lt_min.mp hr).1, hfull⟩, List.getElem?_range hr, Option.map_some]
  · have hnone : (List.range (min m.rows (m.items.length / m.cols)))[r]? = none := by
      rw [List.getElem?_eq_none_iff, List.length_range]
      exact Nat.not_lt.mp hr
    rw [if_neg, hnone, Option.map_none]
    rintro ⟨hrows, hfull⟩
    exact hr (Nat.lt_min.mpr ⟨hrows, (Nat.le_div_iff_mul_le h).mpr hfull⟩)

theorem getElem?_row {r c : Nat} (hc : c < m.cols) : (m.row r)[c]? = m.items[m.position r c]? := by
  rw [row, List.getElem?_take_of_lt hc, List.getElem?_drop, position]

/-! ## Rows, by their places -/

/-- The items between two places, unless these are no places of the list in this order. -/
def slice? (items : List α) (start stop : Nat) : Option (List α) :=
  if start ≤ stop ∧ stop ≤ items.length then some ((items.take stop).drop start) else none

/-- Cuts rows at their places among the items, from the row with a number on, up to the first that does
not lie within the items. Numbers on the way are computed as words. -/
def cutFrom (m : Matrix α) : (count r : Nat) → Except Panic (List (List α))
  | 0, _ => .ok []
  | count + 1, r => do
    let start ← Word.mul r m.cols
    let next ← Word.add r 1
    let stop ← Word.mul next m.cols
    match slice? m.items start stop with
    | none => .ok []
    | some slice => do
      let rest ← cutFrom m count next
      .ok (slice :: rest)

/-- The place behind the row with a number is a word if the place before it is one of the items: behind
the first row it is the number of columns, and any other row comes after a row within the items. -/
theorem stop_lt (hm : m.Fits) {r : Nat} (hr : r * m.cols ≤ m.items.length) :
    (r + 1) * m.cols < Word.size := by
  have hlength := hm.length_lt
  cases r with
  | zero =>
    rw [Nat.zero_add, Nat.one_mul]
    exact hm.cols_lt
  | succ r =>
    have hcols : m.cols ≤ (r + 1) * m.cols := Nat.le_mul_of_pos_left _ (Nat.succ_pos r)
    rw [Nat.succ_mul, Word.size_eq]
    omega

theorem slice?_row (r : Nat) :
    slice? m.items (r * m.cols) ((r + 1) * m.cols) =
      if (r + 1) * m.cols ≤ m.items.length then some (m.row r) else none := by
  have hle : r * m.cols ≤ (r + 1) * m.cols := Nat.mul_le_mul_right _ (Nat.le_succ r)
  have hrow : (m.items.take ((r + 1) * m.cols)).drop (r * m.cols) = m.row r := by
    rw [row, List.drop_take, Nat.succ_mul, Nat.add_sub_cancel_left]
  simp only [slice?, hle, true_and, hrow]

theorem cutFrom_eq (hm : m.Fits) {count r : Nat} (hcount : r + count ≤ m.rows)
    (hr : r * m.cols ≤ m.items.length) :
    m.cutFrom count r = .ok (chunks m.cols count (m.items.drop (r * m.cols))) := by
  induction count generalizing r with
  | zero => rfl
  | succ count ih =>
    have hrows := hm.rows_lt
    have hlength := hm.length_lt
    have hstart : Word.mul r m.cols = .ok (r * m.cols) :=
      Word.ofNat_of_lt (by rw [Word.size_eq]; omega)
    have hnext : Word.add r 1 = .ok (r + 1) := Word.ofNat_of_lt (by rw [Word.size_eq]; omega)
    have hstop : Word.mul (r + 1) m.cols = .ok ((r + 1) * m.cols) := Word.ofNat_of_lt (stop_lt hm hr)
    have hsucc : (r + 1) * m.cols = r * m.cols + m.cols := Nat.succ_mul ..
    simp only [cutFrom, hstart, hnext, hstop, Literal.ok_bind, slice?_row]
    by_cases hfull : (r + 1) * m.cols ≤ m.items.length
    · rw [if_pos hfull, chunks, if_neg (by rw [List.length_drop]; omega)]
      simp only [ih (by omega) hfull, Literal.ok_bind, List.drop_drop, ← hsucc, row]
    · rw [if_neg hfull, chunks, if_pos (by rw [List.length_drop]; omega)]

/-- No number that comes up where rows are cut is too large for a word. -/
theorem cutFrom_eq_rowSlices (hm : m.Fits) : m.cutFrom m.rows 0 = .ok m.rowSlices := by
  have hcut := cutFrom_eq hm (Nat.le_of_eq (Nat.zero_add m.rows)) (by simp)
  rwa [Nat.zero_mul, List.drop_zero] at hcut

/-! ## Matrices of rows -/

/-- The first row decides how long the rows have to be. -/
theorem ofRows?_eq (lists : List (List α)) :
    ofRows? lists =
      if ∀ row ∈ lists, row.length = (lists.headD []).length then
        some ⟨lists.length, (lists.headD []).length, lists.flatten⟩
      else none := by
  cases lists <;> simp [ofRows?]

theorem ofRows?_of_forall {lists : List (List α)} {cols : Nat}
    (h : ∀ row ∈ lists, row.length = cols) (hnil : lists = [] → cols = 0) :
    ofRows? lists = some ⟨lists.length, cols, lists.flatten⟩ := by
  have hcols : (lists.headD []).length = cols := by
    cases lists with
    | nil => exact (hnil rfl).symm
    | cons row rest => exact h row List.mem_cons_self
  rw [ofRows?_eq, hcols, if_pos h]

theorem ofRows?_eq_none_iff {lists : List (List α)} :
    ofRows? lists = none ↔ ∃ a ∈ lists, ∃ b ∈ lists, a.length ≠ b.length := by
  rw [ofRows?_eq]
  constructor
  · intro h
    split at h
    · cases h
    next hne =>
    obtain ⟨row, hr, hrow⟩ : ∃ row ∈ lists, row.length ≠ (lists.headD []).length := by
      simpa using hne
    cases lists with
    | nil => cases hr
    | cons first rest => exact ⟨row, hr, first, List.mem_cons_self, hrow⟩
  · rintro ⟨a, ha, b, hb, hne⟩
    rw [if_neg]
    intro hall
    exact hne ((hall a ha).trans (hall b hb).symm)

/-- Rows of one length make a well-formed matrix, which has these rows. -/
theorem rowSlices_of_ofRows? {lists : List (List α)} (h : ofRows? lists = some m) :
    m.isWellFormed = true ∧ m.rowSlices = lists := by
  rw [ofRows?_eq] at h
  split at h
  · next hall =>
    rw [← Option.some.inj h]
    exact ⟨isWellFormed_iff.mpr (length_flatten_of_forall hall).symm, chunks_flatten hall⟩
  · cases h

/-! ## Well-formed matrices -/

/-- The views of a matrix agree: there are as many rows as the shape says and of the length it says, in
order they are the items, a cell has the item in its row and column, and the rows make the matrix. Only
of columns without a row nothing is left in the rows. -/
structure ViewsAgree (m : Matrix α) : Prop where
  length_rowSlices : m.rowSlices.length = m.rows
  length_row : ∀ row ∈ m.rowSlices, row.length = m.cols
  flatten_rowSlices : m.rowSlices.flatten = m.items
  cell {r c : Nat} (hr : r < m.rows) (hc : c < m.cols) :
    ∃ row x, m.rowSlices[r]? = some row ∧ row[c]? = some x ∧ m.get? r c = .ok (some x)
  no_cell {r c : Nat} (h : ¬ (r < m.rows ∧ c < m.cols)) : m.get? r c = .ok none
  ofRows?_iff : ofRows? m.rowSlices = some m ↔ ¬ (m.rows = 0 ∧ m.cols ≠ 0)

theorem ofRows?_rowSlices_iff (h : m.rows * m.cols = m.items.length) :
    ofRows? m.rowSlices = some m ↔ ¬ (m.rows = 0 ∧ m.cols ≠ 0) := by
  have hrows : m.rowSlices.length = m.rows := length_chunks (Nat.le_of_eq h)
  have hmake : m = ⟨m.rowSlices.length, m.cols, m.rowSlices.flatten⟩ := by
    rw [hrows, rowSlices, flatten_chunks h]
  constructor
  · rintro hof ⟨hzero, hcols⟩
    have hnil : m.rowSlices = [] := List.length_eq_zero_iff.mp (hrows.trans hzero)
    rw [hnil] at hof
    exact hcols (congrArg Matrix.cols (Option.some.inj hof)).symm
  · intro hshape
    have hnil (hnil : m.rowSlices = []) : m.cols = 0 := by
      rw [hnil, List.length_nil] at hrows
      exact Classical.not_not.mp fun hcols => hshape ⟨hrows.symm, hcols⟩
    rw [ofRows?_of_forall length_of_mem_rowSlices hnil, ← hmake]

theorem viewsAgree_of_isWellFormed (hl : m.items.length ≤ Word.size) (h : m.isWellFormed = true) :
    m.ViewsAgree := by
  have hsize := isWellFormed_iff.mp h
  refine ⟨length_chunks (Nat.le_of_eq hsize), length_of_mem_rowSlices, flatten_chunks hsize,
    fun {r c} hr hc => ?_, get?_of_not_mem, ofRows?_rowSlices_iff hsize⟩
  have hfull : (r + 1) * m.cols ≤ m.items.length := hsize ▸ Nat.mul_le_mul_right _ hr
  have hlt : m.position r c < m.items.length := hsize ▸ position_lt hr hc
  have hword : m.position r c < Word.size := Nat.lt_of_lt_of_le hlt hl
  refine ⟨m.row r, m.items[m.position r c], ?_, ?_, ?_⟩
  · rw [getElem?_rowSlices, if_pos ⟨hr, hfull⟩]
  · rw [getElem?_row hc, List.getElem?_eq_getElem hlt]
  · rw [get?_of_position_lt hr hc hword, List.getElem?_eq_getElem hlt]

/-- The views of a well-formed matrix agree. As long as there is a column, the rows of any matrix are the
first ones that its items fill, of those that the shape has. Rows are cut in words without an overflow.
A list of rows makes no matrix exactly if two of them differ in length, and else it makes a well-formed
one with these rows. -/
theorem views_agree (hm : m.Fits) :
    (m.isWellFormed = true → m.ViewsAgree) ∧
    (0 < m.cols →
      let full := min m.rows (m.items.length / m.cols)
      m.rowSlices = (List.range full).map m.row ∧ (∀ row ∈ m.rowSlices, row.length = m.cols) ∧
        m.rowSlices.flatten = m.items.take (full * m.cols)) ∧
    m.cutFrom m.rows 0 = .ok m.rowSlices ∧
    ∀ lists : List (List α),
      (ofRows? lists = none ↔ ∃ a ∈ lists, ∃ b ∈ lists, a.length ≠ b.length) ∧
      ∀ made, ofRows? lists = some made → made.isWellFormed = true ∧ made.rowSlices = lists := by
  have hlength : m.items.length ≤ Word.size := by
    have hlt := hm.length_lt
    rw [Word.size_eq]
    omega
  refine ⟨viewsAgree_of_isWellFormed hlength, fun hc => ?_, cutFrom_eq_rowSlices hm,
    fun lists => ⟨ofRows?_eq_none_iff, fun _ => rowSlices_of_ofRows?⟩⟩
  have hrows := rowSlices_eq_map hc
  refine ⟨hrows, length_of_mem_rowSlices, ?_⟩
  rw [rowSlices, flatten_chunks_eq_take, ← rowSlices, hrows, List.length_map, List.length_range]

/-- A matrix that is well formed, one whose items end within its third row, and one of the largest shape,
whose first row has too few items. -/
theorem views_agree_three_shapes :
    let filled : Matrix Nat := ⟨2, 3, [1, 2, 3, 4, 5, 6]⟩
    let short : Matrix Nat := ⟨4, 2, [1, 2, 3, 4, 5]⟩
    let vast : Matrix Nat := ⟨0xffffffffffffffff, 0xffffffffffffffff, [1, 2]⟩
    filled.Fits ∧ filled.isWellFormed = true ∧ filled.ViewsAgree ∧
      short.Fits ∧ 0 < short.cols ∧ short.rowSlices.flatten = [1, 2, 3, 4] ∧
      short.cutFrom 4 0 = .ok [[1, 2], [3, 4]] ∧
      vast.Fits ∧ vast.cutFrom 0xffffffffffffffff 0 = .ok [] := by
  intro filled short vast
  have hfilled : filled.Fits := ⟨by decide, by decide, by decide⟩
  have hshort : short.Fits := ⟨by decide, by decide, by decide⟩
  have hvast : vast.Fits := ⟨by decide, by decide, by decide⟩
  have hwf : filled.isWellFormed = true := rfl
  have hflat := ((views_agree hshort).2.1 (by decide)).2.2
  have hcut := (views_agree hshort).2.2.1
  have hfull : min vast.rows (vast.items.length / vast.cols) = 0 := by decide
  have hnone := (views_agree hvast).2.2.1
  rw [((views_agree hvast).2.1 (by decide)).1, hfull] at hnone
  exact ⟨hfilled, hwf, (views_agree hfilled).1 hwf, hshort, by decide,
    hflat.trans (by simp [short]), hcut, hvast, hnone⟩

end LiteralBridge.Matrix
