import XorOrbit.Program.Direction

/-!
# Growable tapes

A tape is a finite run of materialized cells with a head on one of them; all
other cells are blank.  The cells are kept as they lie around the head, so that
writing and moving are constant time and a tape can be kept as a snapshot
without being copied.  `cells` and `head` give the view by index: cells are
counted from the leftmost materialized one, so growth on the left renumbers
them.
-/

namespace XorOrbit

/-- A tape whose head always stands on a materialized cell. -/
structure Tape where
  /-- The cells left of the head, the nearest first. -/
  before : List Char
  /-- The cell under the head. -/
  focus : Char
  /-- The cells right of the head, the nearest first. -/
  after : List Char
  /-- The symbol of every cell that has not been materialized. -/
  blank : Char
deriving DecidableEq

namespace Tape

/-- The tape with the given cells; blanks are added on the right until the
head is on a cell. -/
def ofCells (cells : List Char) (head : Nat) (blank : Char) : Tape where
  before := (cells.take head ++
    List.replicate (head - cells.length) blank).reverse
  focus := cells.getD head blank
  after := cells.drop (head + 1)
  blank := blank

/-- The materialized cells from left to right. -/
def cells (tape : Tape) : List Char :=
  tape.before.reverse ++ tape.focus :: tape.after

/-- The index of the cell under the head. -/
def head (tape : Tape) : Nat := tape.before.length

/-- The number of materialized cells. -/
def size (tape : Tape) : Nat :=
  tape.before.length + 1 + tape.after.length

/-- A tape never loses its last cell. -/
def isEmpty (tape : Tape) : Bool := tape.size == 0

/-- The symbol under the head. -/
def read (tape : Tape) : Char := tape.focus

/-- The symbol of the cell with the given index, which may lie outside the
materialized ones. -/
def get (tape : Tape) (index : Nat) : Char :=
  tape.cells.getD index tape.blank

/-- The materialized cells as text. -/
def text (tape : Tape) : String := String.ofList tape.cells

/-- Replaces the symbol under the head. -/
def write (tape : Tape) (symbol : Char) : Tape :=
  { tape with focus := symbol }

/-- Moves the head by one cell; a cell is materialized if there is none. -/
def shift (tape : Tape) : Direction → Tape
  | .left =>
    match tape.before with
    | [] => { tape with focus := tape.blank, after := tape.focus :: tape.after }
    | cell :: before =>
      { tape with before, focus := cell, after := tape.focus :: tape.after }
  | .right =>
    match tape.after with
    | [] =>
      { tape with before := tape.focus :: tape.before, focus := tape.blank }
    | cell :: after =>
      { tape with before := tape.focus :: tape.before, focus := cell, after }
  | .stay => tape

/-- Puts a symbol at an index of a list of cells, adding blanks up to it. -/
def place (cells : List Char) (index : Nat) (symbol blank : Char) : List Char :=
  if index < cells.length then cells.set index symbol
  else cells ++ List.replicate (index - cells.length) blank ++ [symbol]

/-- Writes a symbol at a signed index without moving the head.  A negative
index materializes that many cells on the left, the first of which is written. -/
def writeAt (tape : Tape) (symbol : Char) : Int → Tape
  | .ofNat index =>
    if index < tape.head then
      { tape with before := tape.before.set (tape.head - 1 - index) symbol }
    else if index = tape.head then tape.write symbol
    else
      { tape with
        after := place tape.after (index - tape.head - 1) symbol tape.blank }
  | .negSucc missing =>
    { tape with
      before := tape.before ++ List.replicate missing tape.blank ++ [symbol] }

/-- The index at which `writeAt` writes, counted after the write. -/
def writtenIndex (position : Int) : Nat := position.toNat

theorem head_lt_size (tape : Tape) : tape.head < tape.size := by
  simp [head, size]; omega

@[simp] theorem length_cells (tape : Tape) :
    tape.cells.length = tape.size := by
  simp [cells, size]; omega

@[simp] theorem read_write (tape : Tape) (symbol : Char) :
    (tape.write symbol).read = symbol := rfl

theorem cells_write (tape : Tape) (symbol : Char) :
    (tape.write symbol).cells = tape.cells.set tape.head symbol := by
  simp [cells, write, head]

theorem cells_ofCells (cells : List Char) (head : Nat) (blank : Char) :
    (ofCells cells head blank).cells =
      cells ++ List.replicate (head + 1 - cells.length) blank := by
  by_cases h : head < cells.length
  · have pad : head - cells.length = 0 := by omega
    have pad' : head + 1 - cells.length = 0 := by omega
    simp [ofCells, Tape.cells, pad, pad', h]
  · have pad : head + 1 - cells.length = (head - cells.length) + 1 := by omega
    simp [ofCells, Tape.cells, pad, List.replicate_succ', List.take_of_length_le,
      show cells.length ≤ head by omega, show cells.length ≤ head + 1 by omega]

theorem head_ofCells (cells : List Char) (head : Nat) (blank : Char) :
    (ofCells cells head blank).head = head := by
  simp [ofCells, Tape.head]

/-- A tape is the one made from its own cells and head. -/
theorem ofCells_cells (tape : Tape) :
    ofCells tape.cells tape.head tape.blank = tape := by
  cases tape with
  | mk before focus after blank =>
    have rest : (before.reverse ++ focus :: after).drop (before.length + 1) =
        after := by
      rw [show before.length + 1 = before.reverse.length + 1 by simp,
        List.drop_append]
      simp
    simp [ofCells, cells, head, rest]

end Tape

end XorOrbit
