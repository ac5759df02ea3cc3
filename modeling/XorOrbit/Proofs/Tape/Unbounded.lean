import Mathlib.Data.Int.Interval
import XorOrbit.Proofs.Tape.Cells

/-!
# Tapes without ends

A growable tape behaves like a tape with a cell for every integer.  The cells
that have been added on the left make the difference between an index and the
integer of its cell; their number is called the origin.
-/

namespace XorOrbit

/-- What can be done to a tape. -/
inductive Tape.Operation
  | write (symbol : Char)
  | writeAt (symbol : Char) (position : Int)
  | shift (direction : Direction)
deriving DecidableEq

/-- A tape with a cell for every integer. -/
structure UnboundedTape where
  cell : Int → Char
  head : Int

namespace UnboundedTape

/-- The tape with the given cells from zero on and blanks elsewhere. -/
def ofCells (cells : List Char) (head : Nat) (blank : Char) :
    UnboundedTape where
  cell := cellAt cells blank
  head := head

/-- The symbol under the head. -/
def read (tape : UnboundedTape) : Char := tape.cell tape.head

/-- Performs an operation whose positions are counted from the cell that lies
the given number of cells left of zero. -/
def perform (tape : UnboundedTape) (origin : Nat) :
    Tape.Operation → UnboundedTape
  | .write symbol =>
    { tape with cell := Function.update tape.cell tape.head symbol }
  | .writeAt symbol position =>
    { tape with
      cell := Function.update tape.cell (position - origin) symbol }
  | .shift direction => { tape with head := tape.head + direction.offset }

end UnboundedTape

namespace Tape

/-- Performs an operation. -/
def perform (tape : Tape) : Operation → Tape
  | .write symbol => tape.write symbol
  | .writeAt symbol position => tape.writeAt symbol position
  | .shift direction => tape.shift direction

/-- The number of cells that an operation adds on the left. -/
def prepended (tape : Tape) : Operation → Nat
  | .writeAt _ position => (-position).toNat
  | .shift .left => 1 - tape.head
  | _ => 0

@[simp] theorem blank_perform (tape : Tape) (operation : Operation) :
    (tape.perform operation).blank = tape.blank := by
  cases operation with
  | write symbol => rfl
  | writeAt symbol position => exact tape.blank_writeAt symbol position
  | shift direction => exact tape.blank_shift direction

/-- The tape is the part of the unbounded one that starts the given number of
cells left of zero. -/
structure Represents (tape : Tape) (origin : Nat) (ideal : UnboundedTape) :
    Prop where
  head_eq : (tape.head : Int) - origin = ideal.head
  symbolAt_eq : ∀ position,
    tape.symbolAt position = ideal.cell (position - origin)

namespace Represents

variable {tape : Tape} {origin : Nat} {ideal : UnboundedTape}

theorem ofCells (cells : List Char) (head : Nat) (blank : Char) :
    Represents (.ofCells cells head blank) 0
      (.ofCells cells head blank) where
  head_eq := by
    rw [head_ofCells]
    exact Int.sub_zero _
  symbolAt_eq := by
    intro position
    rw [symbolAt_ofCells]
    exact congrArg _ (Int.sub_zero _).symm

variable (hrepresents : Represents tape origin ideal)
include hrepresents

theorem write (symbol : Char) :
    Represents (tape.write symbol) origin
      (ideal.perform origin (.write symbol)) where
  head_eq := hrepresents.head_eq
  symbolAt_eq := by
    intro position
    have hhead := hrepresents.head_eq
    simp only [symbolAt_write, UnboundedTape.perform,
      Function.update_apply, hrepresents.symbolAt_eq]
    exact if_congr (by omega) rfl rfl

theorem writeAt (symbol : Char) (position : Int) :
    Represents (tape.writeAt symbol position)
      (origin + (-position).toNat)
      (ideal.perform origin (.writeAt symbol position)) where
  head_eq := by
    have hhead := hrepresents.head_eq
    simp only [head_writeAt, UnboundedTape.perform]
    omega
  symbolAt_eq := by
    intro index
    simp only [symbolAt_writeAt, UnboundedTape.perform,
      Function.update_apply, hrepresents.symbolAt_eq]
    refine if_congr ?_ rfl (congrArg _ ?_)
    · unfold writtenIndex
      omega
    · omega

/-- Where the head stands on the first cell, a move to the left shifts the
origin in place of the head's index. -/
theorem shift (direction : Direction) :
    Represents (tape.shift direction)
      (origin + tape.prepended (.shift direction))
      (ideal.perform origin (.shift direction)) := by
  have hhead := hrepresents.head_eq
  cases direction with
  | left =>
      constructor
      · simp only [head_shift_left, UnboundedTape.perform, prepended,
          Direction.offset]
        omega
      · intro position
        simp only [symbolAt_shift_left, hrepresents.symbolAt_eq,
          UnboundedTape.perform, prepended]
        exact congrArg _ (by omega)
  | right =>
      constructor
      · simp only [head_shift_right, UnboundedTape.perform, prepended,
          Direction.offset]
        omega
      · intro position
        rw [symbolAt_shift_right, hrepresents.symbolAt_eq]
        rfl
  | stay =>
      constructor
      · simp only [UnboundedTape.perform, Direction.offset, Int.add_zero]
        exact hhead
      · exact hrepresents.symbolAt_eq

theorem perform (operation : Operation) :
    Represents (tape.perform operation)
      (origin + tape.prepended operation)
      (ideal.perform origin operation) := by
  cases operation with
  | write symbol => exact hrepresents.write symbol
  | writeAt symbol position => exact hrepresents.writeAt symbol position
  | shift direction => exact hrepresents.shift direction

theorem read_eq : tape.read = ideal.read := by
  rw [read_eq_symbolAt, hrepresents.symbolAt_eq, hrepresents.head_eq,
    UnboundedTape.read]

theorem get_eq (index : Nat) :
    tape.get index = ideal.cell (index - origin) := by
  rw [get_eq_symbolAt, hrepresents.symbolAt_eq]

/-- Only the cells that have been materialized can be other than blank. -/
theorem finite_cell_ne_blank :
    {position | ideal.cell position ≠ tape.blank}.Finite := by
  apply (Set.finite_Ico (-origin : Int)
    (tape.cells.length - origin)).subset
  intro position hposition
  by_contra houtside
  apply hposition
  have hcell := hrepresents.symbolAt_eq (position + origin)
  rw [Int.add_sub_cancel] at hcell
  rw [← hcell, symbolAt]
  rw [Set.mem_Ico, not_and_or, not_le, not_lt] at houtside
  rcases houtside with hleft | hright
  · exact cellAt_of_neg (by omega)
  · exact cellAt_of_le (by omega)

end Represents

/-- A tape next to the unbounded tape on which the same operations have been
performed. -/
structure Mirrored where
  tape : Tape
  /-- The number of cells that have been added on the left. -/
  origin : Nat
  ideal : UnboundedTape

namespace Mirrored

/-- A fresh tape on both sides. -/
def ofCells (cells : List Char) (head : Nat) (blank : Char) : Mirrored where
  tape := .ofCells cells head blank
  origin := 0
  ideal := .ofCells cells head blank

/-- Performs an operation on both sides. -/
def perform (mirrored : Mirrored) (operation : Operation) : Mirrored where
  tape := mirrored.tape.perform operation
  origin := mirrored.origin + mirrored.tape.prepended operation
  ideal := mirrored.ideal.perform mirrored.origin operation

/-- Performs operations on both sides, one after the other. -/
def performAll (mirrored : Mirrored) (operations : List Operation) :
    Mirrored :=
  operations.foldl perform mirrored

variable (mirrored : Mirrored) (operations : List Operation)

theorem tape_performAll :
    (mirrored.performAll operations).tape =
      operations.foldl Tape.perform mirrored.tape := by
  induction operations generalizing mirrored with
  | nil => rfl
  | cons operation operations ih => exact ih (mirrored.perform operation)

theorem blank_performAll :
    (mirrored.performAll operations).tape.blank = mirrored.tape.blank := by
  induction operations generalizing mirrored with
  | nil => rfl
  | cons operation operations ih =>
      exact (ih (mirrored.perform operation)).trans (blank_perform _ _)

theorem represents_performAll
    (hrepresents : Represents mirrored.tape mirrored.origin
      mirrored.ideal) :
    Represents (mirrored.performAll operations).tape
      (mirrored.performAll operations).origin
      (mirrored.performAll operations).ideal := by
  induction operations generalizing mirrored with
  | nil => exact hrepresents
  | cons operation operations ih =>
      exact ih (mirrored.perform operation) (hrepresents.perform operation)

end Mirrored

/-- Whatever is done to a tape, its head stays on its cells, every write puts its
symbol into one of them, and head and cells are those of the unbounded tape. -/
theorem refines_unbounded (cells : List Char) (head : Nat) (blank : Char)
    (operations : List Operation) :
    let mirrored := (Mirrored.ofCells cells head blank).performAll operations
    mirrored.tape =
        operations.foldl Tape.perform (.ofCells cells head blank) ∧
      mirrored.tape.head < mirrored.tape.cells.length ∧
      (∀ symbol, (mirrored.tape.write symbol).cells =
        mirrored.tape.cells.set mirrored.tape.head symbol) ∧
      (∀ symbol position,
        writtenIndex position <
            (mirrored.tape.writeAt symbol position).cells.length ∧
          (mirrored.tape.writeAt symbol position).cells[
            writtenIndex position]? = some symbol) ∧
      (mirrored.tape.head : Int) - mirrored.origin = mirrored.ideal.head ∧
      mirrored.tape.read = mirrored.ideal.read ∧
      (∀ index : Nat, mirrored.tape.get index =
        mirrored.ideal.cell (index - mirrored.origin)) ∧
      {position | mirrored.ideal.cell position ≠ blank}.Finite := by
  intro mirrored
  have hrepresents : Represents mirrored.tape mirrored.origin
      mirrored.ideal :=
    Mirrored.represents_performAll _ operations (.ofCells cells head blank)
  have hblank : mirrored.tape.blank = blank :=
    Mirrored.blank_performAll _ operations
  refine ⟨Mirrored.tape_performAll _ operations,
    mirrored.tape.head_lt_length, mirrored.tape.cells_write, ?_,
    hrepresents.head_eq, hrepresents.read_eq, hrepresents.get_eq, ?_⟩
  · intro symbol position
    exact ⟨mirrored.tape.writtenIndex_lt symbol position,
      mirrored.tape.getElem?_writeAt symbol position⟩
  · rw [← hblank]
    exact hrepresents.finite_cell_ne_blank

/-- Moving left from the first cell leaves the head on index zero, writing left
of it does not. -/
example :
    let mirrored := (Mirrored.ofCells ['x'] 0 '_').performAll
      [.shift .left, .writeAt '1' (-2)]
    mirrored.tape.cells = ['1', '_', '_', 'x'] ∧ mirrored.tape.head = 2 ∧
      mirrored.origin = 3 ∧ mirrored.ideal.head = -1 := by
  decide

end Tape

end XorOrbit
