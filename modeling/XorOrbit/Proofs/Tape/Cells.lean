import Mathlib.Data.List.GetD
import Mathlib.Logic.Function.Basic
import XorOrbit.Tape

/-!
# The cells of a tape by index

What each operation does to the materialized cells and to the index of the
head.  Outside the materialized cells the tape is blank, and `Tape.symbolAt`
reads it by a signed index as if it had no ends.  Seen in this way, growth only
renumbers the cells and a write changes one of them.
-/

namespace XorOrbit

/-! ## Rows between blanks -/

/-- The symbol with a signed index in a row of cells that has blanks on both
sides. -/
def cellAt (cells : List Char) (blank : Char) : Int → Char
  | .ofNat index => cells.getD index blank
  | .negSucc _ => blank

section Row

variable {cells : List Char} {blank symbol : Char} {index : Nat}
  {position : Int}

theorem cellAt_natCast (cells : List Char) (blank : Char) (index : Nat) :
    cellAt cells blank index = cells.getD index blank := rfl

theorem cellAt_of_neg (hposition : position < 0) :
    cellAt cells blank position = blank := by
  cases position with
  | ofNat index => exact absurd hposition (by simp)
  | negSucc index => rfl

theorem cellAt_of_le (hposition : (cells.length : Int) ≤ position) :
    cellAt cells blank position = blank := by
  obtain ⟨index, rfl⟩ := Int.eq_ofNat_of_zero_le
    (Int.le_trans (Int.natCast_nonneg _) hposition)
  exact List.getD_eq_default _ _ (by omega)

/-- Blanks on the left renumber the cells. -/
theorem cellAt_replicate_append (cells : List Char) (blank : Char)
    (count : Nat) (position : Int) :
    cellAt (List.replicate count blank ++ cells) blank position =
      cellAt cells blank (position - count) := by
  rcases Int.lt_or_le position 0 with hneg | hnonneg
  · rw [cellAt_of_neg hneg, cellAt_of_neg (by omega)]
  · obtain ⟨index, rfl⟩ := Int.eq_ofNat_of_zero_le hnonneg
    rcases Nat.lt_or_ge index count with hlt | hge
    · rw [cellAt_natCast, List.getD_append _ _ _ _ (by simpa using hlt),
        List.getD_replicate _ hlt, cellAt_of_neg (by omega)]
    · rw [show (index : Int) - count = (index - count : Nat) by omega,
        cellAt_natCast, cellAt_natCast,
        List.getD_append_right _ _ _ _ (by simpa using hge),
        List.length_replicate]

/-- Blanks on the right make no difference. -/
theorem cellAt_append_replicate (cells : List Char) (blank : Char)
    (count : Nat) :
    cellAt (cells ++ List.replicate count blank) blank =
      cellAt cells blank := by
  funext position
  rcases Int.lt_or_le position cells.length with hlt | hge
  · cases position with
    | ofNat index => exact List.getD_append _ _ _ _ (by simpa using hlt)
    | negSucc index => rfl
  · obtain ⟨index, rfl⟩ := Int.eq_ofNat_of_zero_le
      (Int.le_trans (Int.natCast_nonneg _) hge)
    rw [cellAt_of_le hge, cellAt_natCast,
      List.getD_append_right _ _ _ _ (by omega),
      List.getD_eq_getElem?_getD, List.getElem?_getD_replicate_default_eq]

/-- Rows that read the same differ only in the blanks at their ends. -/
theorem append_replicate_eq {first second : List Char}
    (hcells : cellAt first blank = cellAt second blank) :
    first ++ List.replicate second.length blank =
      second ++ List.replicate first.length blank := by
  apply List.ext_getElem
  · simp [Nat.add_comm]
  · intro index hfirst hsecond
    have hcell := congrFun hcells index
    rw [← cellAt_append_replicate first blank second.length,
      ← cellAt_append_replicate second blank first.length,
      cellAt_natCast, cellAt_natCast] at hcell
    rwa [List.getD_eq_getElem _ _ hfirst,
      List.getD_eq_getElem _ _ hsecond] at hcell

theorem reverse_set (hindex : index < cells.length) :
    (cells.set (cells.length - 1 - index) symbol).reverse =
      cells.reverse.set index symbol := by
  apply List.ext_getElem
  · simp
  · intro other hother _
    rw [List.length_reverse, List.length_set] at hother
    have hindex' : cells.length - 1 - index = cells.length - 1 - other ↔
        index = other := by omega
    simp only [List.getElem_reverse, List.getElem_set, List.length_set,
      hindex']

theorem cellAt_set (hindex : index < cells.length) :
    cellAt (cells.set index symbol) blank =
      Function.update (cellAt cells blank) index symbol := by
  funext position
  rw [Function.update_apply]
  cases position with
  | ofNat other =>
      simp only [cellAt, List.getD_eq_getElem?_getD, List.getElem?_set,
        Int.ofNat_eq_natCast, Int.natCast_inj]
      by_cases hother : other = index
      · simp [hother, hindex]
      · simp [hother, Ne.symm hother]
  | negSucc other =>
      rw [if_neg (by omega)]
      rfl

/-- Placing a symbol extends the cells up to its index and sets the cell. -/
theorem place_eq_set (cells : List Char) (index : Nat)
    (symbol blank : Char) :
    Tape.place cells index symbol blank =
      (cells ++ List.replicate (index + 1 - cells.length) blank).set index
        symbol := by
  rw [Tape.place]
  split
  · rename_i hindex
    simp [show index + 1 - cells.length = 0 by omega]
  · rename_i hindex
    have hcount : index + 1 - cells.length = (index - cells.length) + 1 := by
      omega
    rw [hcount, List.replicate_succ', ← List.append_assoc,
      List.set_append_right _ _ (by simp; omega)]
    simp [show index - (cells.length + (index - cells.length)) = 0 by omega]

theorem length_place (cells : List Char) (index : Nat)
    (symbol blank : Char) :
    (Tape.place cells index symbol blank).length =
      max cells.length (index + 1) := by
  simp [place_eq_set]
  omega

/-- A symbol placed behind the first row only changes the second. -/
theorem place_append (left right : List Char) (index : Nat)
    (symbol blank : Char) :
    Tape.place (left ++ right) (left.length + index) symbol blank =
      left ++ Tape.place right index symbol blank := by
  simp only [Tape.place, List.length_append, Nat.add_lt_add_iff_left]
  split
  · rw [List.set_append_right _ _ (by omega), Nat.add_sub_cancel_left]
  · simp [Nat.add_sub_add_left]

theorem cellAt_place (cells : List Char) (index : Nat)
    (symbol blank : Char) :
    cellAt (Tape.place cells index symbol blank) blank =
      Function.update (cellAt cells blank) index symbol := by
  rw [place_eq_set, cellAt_set (by simp; omega), cellAt_append_replicate]

end Row

/-! ## Operations -/

/-- By how much a move changes the position of the head. -/
def Direction.offset : Direction → Int
  | left => -1
  | right => 1
  | stay => 0

namespace Tape

/-- The symbol with a signed index, counted from the leftmost materialized
cell. -/
def symbolAt (tape : Tape) : Int → Char := cellAt tape.cells tape.blank

theorem get_eq_symbolAt (tape : Tape) (index : Nat) :
    tape.get index = tape.symbolAt index := rfl

theorem head_lt_length (tape : Tape) : tape.head < tape.cells.length := by
  rw [length_cells]
  exact tape.head_lt_size

theorem read_eq_symbolAt (tape : Tape) :
    tape.read = tape.symbolAt tape.head := by
  rw [symbolAt, cellAt_natCast]
  simp [cells, head, read]

theorem symbolAt_ofCells (cells : List Char) (head : Nat) (blank : Char) :
    (ofCells cells head blank).symbolAt = cellAt cells blank := by
  rw [symbolAt, cells_ofCells]
  exact cellAt_append_replicate ..

/-! ### Writing -/

section Write

variable (tape : Tape) (symbol : Char)

@[simp] theorem blank_write : (tape.write symbol).blank = tape.blank := rfl

@[simp] theorem head_write : (tape.write symbol).head = tape.head := rfl

theorem symbolAt_write :
    (tape.write symbol).symbolAt =
      Function.update tape.symbolAt tape.head symbol := by
  rw [symbolAt, cells_write]
  exact cellAt_set tape.head_lt_length

@[simp] theorem blank_writeAt (position : Int) :
    (tape.writeAt symbol position).blank = tape.blank := by
  unfold writeAt
  split
  · split
    · rfl
    · split
      · rfl
      · rfl
  · rfl

/-- A write to the left of the cells moves the head's index along with its
cell. -/
theorem head_writeAt (position : Int) :
    (tape.writeAt symbol position).head = tape.head + (-position).toNat := by
  cases position with
  | ofNat index =>
      simp only [writeAt]
      split
      · simp [head]
      · split
        · simp
        · simp [head]
  | negSucc missing =>
      simp [writeAt, head]

theorem cells_set_before {index : Nat} (hindex : index < tape.head) :
    ({ tape with
      before := tape.before.set (tape.head - 1 - index) symbol } : Tape).cells =
      tape.cells.set index symbol := by
  have hbefore : index < tape.before.length := hindex
  rw [cells, cells, head, reverse_set hbefore,
    List.set_append_left _ _ (by simpa using hbefore)]

theorem cells_place_after (distance : Nat) :
    ({ tape with
      after := place tape.after distance symbol tape.blank } : Tape).cells =
      place tape.cells (tape.head + 1 + distance) symbol tape.blank := by
  have hlength :
      (tape.before.reverse ++ [tape.focus]).length = tape.head + 1 := by
    simp [head]
  have hplace := place_append (tape.before.reverse ++ [tape.focus])
    tape.after distance symbol tape.blank
  rw [hlength] at hplace
  simpa [cells] using hplace.symm

/-- A write to an index that is not negative only ever extends the cells on the
right. -/
theorem cells_writeAt_natCast (index : Nat) :
    (tape.writeAt symbol index).cells =
      place tape.cells index symbol tape.blank := by
  change (tape.writeAt symbol (.ofNat index)).cells = _
  rcases Nat.lt_trichotomy index tape.head with hlt | rfl | hgt
  · rw [writeAt, if_pos hlt, cells_set_before tape symbol hlt, place,
      if_pos (Nat.lt_trans hlt tape.head_lt_length)]
  · rw [writeAt, if_neg (Nat.lt_irrefl _), if_pos rfl, cells_write, place,
      if_pos tape.head_lt_length]
  · rw [writeAt, if_neg (Nat.not_lt_of_gt hgt), if_neg (Nat.ne_of_gt hgt),
      cells_place_after]
    exact congrArg (place tape.cells · symbol tape.blank) (by omega)

/-- Writing extends the cells on the side on which the position lies and then
sets one of them. -/
theorem cells_writeAt (position : Int) :
    (tape.writeAt symbol position).cells =
      place (List.replicate (-position).toNat tape.blank ++ tape.cells)
        (writtenIndex position) symbol tape.blank := by
  cases position with
  | ofNat index =>
      have hnone : (-Int.ofNat index).toNat = 0 := by simp
      rw [hnone, List.replicate_zero, List.nil_append]
      exact tape.cells_writeAt_natCast symbol index
  | negSucc missing =>
      have hmissing : (-Int.negSucc missing).toNat = missing + 1 := rfl
      have hindex : writtenIndex (.negSucc missing) = 0 := rfl
      have hpos : 0 <
          (List.replicate (missing + 1) tape.blank ++ tape.cells).length := by
        rw [List.length_append, List.length_replicate]
        omega
      rw [hmissing, hindex, place, if_pos hpos]
      simp [writeAt, cells, List.replicate_succ]

theorem symbolAt_writeAt (position index : Int) :
    (tape.writeAt symbol position).symbolAt index =
      if index = writtenIndex position then symbol
      else tape.symbolAt (index - (-position).toNat) := by
  rw [symbolAt, cells_writeAt, blank_writeAt, cellAt_place,
    Function.update_apply, cellAt_replicate_append]
  rfl

/-- The cell that is written is among the materialized ones. -/
theorem writtenIndex_lt (position : Int) :
    writtenIndex position < (tape.writeAt symbol position).cells.length := by
  rw [cells_writeAt, length_place]
  omega

/-- The cell at the written index holds the symbol afterwards. -/
theorem getElem?_writeAt (position : Int) :
    (tape.writeAt symbol position).cells[writtenIndex position]? =
      some symbol := by
  rw [cells_writeAt, place_eq_set]
  apply List.getElem?_set_self
  rw [List.length_append, List.length_replicate]
  omega

end Write

section Shift

variable (tape : Tape)

@[simp] theorem blank_shift (direction : Direction) :
    (tape.shift direction).blank = tape.blank := by
  cases direction with
  | left => cases hbefore : tape.before <;> simp [shift, hbefore]
  | right => cases hafter : tape.after <;> simp [shift, hafter]
  | stay => rfl

theorem head_shift_left : (tape.shift .left).head = tape.head - 1 := by
  cases hbefore : tape.before with
  | nil => simp [shift, head, hbefore]
  | cons cell before => simp [shift, head, hbefore]

theorem head_shift_right : (tape.shift .right).head = tape.head + 1 := by
  cases hafter : tape.after with
  | nil => simp [shift, head, hafter]
  | cons cell after => simp [shift, head, hafter]

/-- A blank is added on the left if the head is on the first cell. -/
theorem cells_shift_left :
    (tape.shift .left).cells =
      List.replicate (1 - tape.head) tape.blank ++ tape.cells := by
  cases hbefore : tape.before with
  | nil => simp [shift, cells, head, hbefore]
  | cons cell before => simp [shift, cells, head, hbefore]

/-- A blank is added on the right if the head is on the last cell. -/
theorem cells_shift_right :
    (tape.shift .right).cells =
      tape.cells ++ List.replicate (tape.head + 2 - tape.size) tape.blank := by
  cases hafter : tape.after with
  | nil => simp [shift, cells, head, size, hafter]
  | cons cell after =>
      have hnone : tape.before.length + 2 -
          (tape.before.length + 1 + (after.length + 1)) = 0 := by omega
      simp [shift, cells, head, size, hafter, hnone]

theorem symbolAt_shift_left (position : Int) :
    (tape.shift .left).symbolAt position =
      tape.symbolAt (position - (1 - tape.head : Nat)) := by
  rw [symbolAt, cells_shift_left, blank_shift, cellAt_replicate_append]
  rfl

theorem symbolAt_shift_right :
    (tape.shift .right).symbolAt = tape.symbolAt := by
  rw [symbolAt, cells_shift_right, blank_shift, cellAt_append_replicate]
  rfl

end Shift

end Tape

end XorOrbit
