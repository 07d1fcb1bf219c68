/-
Row-major grids. A grid is one flat vector of `rows * cols` cells, line after
line, read and written through a line and a column that are in range by type.
Nothing here knows what a cell holds.
-/

import Mathlib

namespace Tair.Library

/-- The flat vector is the only data; a line is a block of `cols` cells. -/
structure Grid (rows cols : Nat) (α : Type) where
  cells : Vector α (rows * cols)
deriving DecidableEq, Repr

namespace Grid

variable {rows cols : Nat} {α β : Type}

theorem offset_lt (line : Fin rows) (col : Fin cols) : line.val * cols + col.val < rows * cols :=
  calc line.val * cols + col.val
      < line.val * cols + cols := Nat.add_lt_add_left col.isLt _
    _ = (line.val + 1) * cols := (Nat.succ_mul _ _).symm
    _ ≤ rows * cols := Nat.mul_le_mul_right _ line.isLt

def offset (line : Fin rows) (col : Fin cols) : Fin (rows * cols) :=
  ⟨line.val * cols + col.val, offset_lt line col⟩

theorem offset_injective {line line' : Fin rows} {col col' : Fin cols}
    (same : offset line col = offset line' col') : line = line' ∧ col = col' := by
  have pos : 0 < cols := Nat.lt_of_le_of_lt (Nat.zero_le _) col.isLt
  have flat : line.val * cols + col.val = line'.val * cols + col'.val :=
    congrArg Fin.val same
  have lines : line.val = line'.val := by
    have divided := congrArg (· / cols) flat
    simpa [Nat.add_comm, Nat.add_mul_div_right _ _ pos,
      Nat.div_eq_of_lt col.isLt, Nat.div_eq_of_lt col'.isLt] using divided
  have columns : col.val = col'.val := by
    rw [lines] at flat
    exact Nat.add_left_cancel flat
  exact ⟨Fin.ext lines, Fin.ext columns⟩

def get (grid : Grid rows cols α) (line : Fin rows) (col : Fin cols) : α :=
  grid.cells.get (offset line col)

def set (grid : Grid rows cols α) (line : Fin rows) (col : Fin cols) (value : α) :
    Grid rows cols α :=
  ⟨grid.cells.set (offset line col).val value (offset line col).isLt⟩

def lineOf (index : Fin (rows * cols)) : Fin rows :=
  ⟨index.val / cols, Nat.div_lt_of_lt_mul (Nat.mul_comm rows cols ▸ index.isLt)⟩

def colOf (index : Fin (rows * cols)) : Fin cols :=
  ⟨index.val % cols, Nat.mod_lt _ (Nat.pos_of_ne_zero (by
    rintro rfl
    exact Nat.not_lt_zero _ index.isLt))⟩

def ofFn (value : Fin rows → Fin cols → α) : Grid rows cols α :=
  ⟨Vector.ofFn fun index => value (lineOf index) (colOf index)⟩

def map (change : α → β) (grid : Grid rows cols α) : Grid rows cols β :=
  ofFn fun line col => change (grid.get line col)

/-- The cells in storage order. -/
def toList (grid : Grid rows cols α) : List α := grid.cells.toList

theorem lineOf_offset (line : Fin rows) (col : Fin cols) : lineOf (offset line col) = line := by
  apply Fin.ext
  change (line.val * cols + col.val) / cols = line.val
  rw [Nat.add_comm, Nat.add_mul_div_right _ _ (Nat.lt_of_le_of_lt (Nat.zero_le _) col.isLt),
    Nat.div_eq_of_lt col.isLt, Nat.zero_add]

theorem colOf_offset (line : Fin rows) (col : Fin cols) : colOf (offset line col) = col := by
  apply Fin.ext
  change (line.val * cols + col.val) % cols = col.val
  rw [Nat.add_comm, Nat.add_mul_mod_self_right, Nat.mod_eq_of_lt col.isLt]

theorem offset_lineOf_colOf (index : Fin (rows * cols)) :
    offset (lineOf index) (colOf index) = index := by
  apply Fin.ext
  change index.val / cols * cols + index.val % cols = index.val
  rw [Nat.mul_comm]
  exact Nat.div_add_mod _ _

@[simp]
theorem get_ofFn (value : Fin rows → Fin cols → α) (line : Fin rows) (col : Fin cols) :
    (ofFn value).get line col = value line col := by
  unfold get ofFn
  rw [Vector.get_eq_getElem, Vector.getElem_ofFn]
  change value (lineOf (offset line col)) (colOf (offset line col)) = value line col
  rw [lineOf_offset, colOf_offset]

@[simp]
theorem get_map (change : α → β) (grid : Grid rows cols α) (line : Fin rows) (col : Fin cols) :
    (grid.map change).get line col = change (grid.get line col) :=
  get_ofFn _ line col

theorem get_set (grid : Grid rows cols α) (line line' : Fin rows) (col col' : Fin cols)
    (value : α) :
    (grid.set line col value).get line' col' =
      if line' = line ∧ col' = col then value else grid.get line' col' := by
  unfold get set
  rw [Vector.get_eq_getElem, Vector.get_eq_getElem, Vector.getElem_set]
  by_cases here : line' = line ∧ col' = col
  · obtain ⟨rfl, rfl⟩ := here
    simp
  · have apart : (offset line col).val ≠ (offset line' col').val := by
      intro same
      obtain ⟨lines, columns⟩ := offset_injective (Fin.ext same)
      exact here ⟨lines.symm, columns.symm⟩
    rw [if_neg apart, if_neg here]

@[simp]
theorem get_set_self (grid : Grid rows cols α) (line : Fin rows) (col : Fin cols) (value : α) :
    (grid.set line col value).get line col = value := by
  rw [get_set, if_pos ⟨rfl, rfl⟩]

theorem get_set_of_line_ne (grid : Grid rows cols α) {line line' : Fin rows}
    (col col' : Fin cols) (value : α) (ne : line' ≠ line) :
    (grid.set line col value).get line' col' = grid.get line' col' := by
  rw [get_set, if_neg (fun both => ne both.1)]

@[ext]
theorem ext {left right : Grid rows cols α}
    (same : ∀ line col, left.get line col = right.get line col) : left = right := by
  rcases left with ⟨leftCells⟩
  rcases right with ⟨rightCells⟩
  congr 1
  apply Vector.ext
  intro index bound
  have cell := same (lineOf ⟨index, bound⟩) (colOf ⟨index, bound⟩)
  simpa only [get, offset_lineOf_colOf, Vector.get_eq_getElem] using cell

end Grid

end Tair.Library
