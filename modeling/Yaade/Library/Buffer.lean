import Mathlib.Tactic

/-!
Buffers of a fixed length that are written over in parts, and tables of rows of
one length that lie in a buffer row by row.
-/

namespace Yaade.Library.Buffer

open List Option

section Blit

variable {α β : Type} {buffer values : List α} {start index : Nat}

def blit (buffer : List α) (start : Nat) (values : List α) : List α :=
  (buffer.take start ++ values ++ buffer.drop (start + values.length)).take buffer.length

section

variable (h : start + values.length ≤ buffer.length)
include h

theorem blit_length : (blit buffer start values).length = buffer.length := by
  unfold blit
  simp only [length_take, length_append, length_drop]
  omega

theorem blit_eq : blit buffer start values =
    buffer.take start ++ values ++ buffer.drop (start + values.length) := by
  apply take_of_length_le
  simp only [length_append, length_take, length_drop]
  omega

theorem blit_inside (hindex : index < values.length) :
    (blit buffer start values)[start + index]? = values[index]? := by
  have hstart : (buffer.take start).length = start := by
    rw [length_take]
    omega
  rw [blit_eq h, append_assoc, getElem?_append_right (by omega), hstart,
    Nat.add_sub_cancel_left, getElem?_append_left hindex]

theorem blit_outside (hindex : index < start ∨ start + values.length ≤ index) :
    (blit buffer start values)[index]? = buffer[index]? := by
  have hstart : (buffer.take start).length = start := by
    rw [length_take]
    omega
  rw [blit_eq h]
  rcases hindex with hbef | hafter
  · rw [append_assoc, getElem?_append_left (by omega), getElem?_take_of_lt hbef]
  rw [getElem?_append_right (by rw [length_append, hstart]; exact hafter),
    length_append, hstart, getElem?_drop]
  congr 1
  omega

end

theorem take_blit (h : values.length ≤ buffer.length) :
    (blit buffer 0 values).take values.length = values := by
  rw [blit_eq (by omega), take_zero, nil_append, take_left]

end Blit

/-! ## Rows in a buffer -/

section Rows

variable {α : Type} {width : Nat}

theorem length_flatten {rows : List (List α)} (h : ∀ row ∈ rows, row.length = width) :
    rows.flatten.length = rows.length * width := by
  induction rows with
  | nil => simp
  | cons first rest ih =>
    rw [flatten_cons, length_append, h first mem_cons_self,
      ih fun row hrow => h row (mem_cons_of_mem first hrow), length_cons, Nat.succ_mul,
      Nat.add_comm]

theorem flatten_get {rows : List (List α)} (h : ∀ row ∈ rows, row.length = width)
    {number column : Nat} (hcolumn : column < width) :
    rows.flatten[number * width + column]? = (rows[number]?).bind fun row => row[column]? := by
  induction rows generalizing number with
  | nil => simp
  | cons first rest ih =>
    have hfirst := h first mem_cons_self
    rw [flatten_cons]
    cases number with
    | zero =>
      rw [Nat.zero_mul, Nat.zero_add, getElem?_append_left (hfirst ▸ hcolumn)]
      rfl
    | succ number =>
      rw [getElem?_append_right (by rw [hfirst, Nat.succ_mul]; omega), hfirst]
      rw [show (number + 1) * width + column - width = number * width + column by
        rw [Nat.succ_mul]; omega]
      exact ih fun row hrow => h row (mem_cons_of_mem first hrow)

theorem row_apart {row other column : Nat} (hcolumn : column < width) (h : other ≠ row) :
    other * width + column < row * width ∨ row * width + width ≤ other * width + column := by
  rcases Nat.lt_or_gt_of_ne h with hlt | hgt
  · have hle := Nat.mul_le_mul_right width (Nat.succ_le_of_lt hlt)
    rw [Nat.succ_mul] at hle
    omega
  · have hle := Nat.mul_le_mul_right width (Nat.succ_le_of_lt hgt)
    rw [Nat.succ_mul] at hle
    omega

theorem row_inside {row rows : Nat} (h : row < rows) : row * width + width ≤ rows * width := by
  have hle := Nat.mul_le_mul_right width (Nat.succ_le_of_lt h)
  rwa [Nat.succ_mul] at hle

end Rows

end Yaade.Library.Buffer
