import Mathlib.Data.List.Basic
import XorOrbit.Proofs.Tape.Cut
import XorOrbit.Word

/-!
# Rows of cells

The rows that the tape of a synthesized program is made of: words written with
bits or with markers, blanks, and the log.  `Symbol.unmark` reads a marker as
the bit that it stands for, so that a row with markers in it can be compared
with the row that it will be once all markers are gone.
-/

namespace XorOrbit

namespace Symbol

/-- Reads a marker as its bit and every other symbol as itself. -/
def unmark (symbol : Char) : Char :=
  if symbol = markOf false then ofBit false
  else if symbol = markOf true then ofBit true
  else symbol

@[simp] theorem unmark_markOf (bit : Bool) :
    unmark (markOf bit) = ofBit bit := by
  cases bit <;> rfl

@[simp] theorem unmark_ofBit (bit : Bool) :
    unmark (ofBit bit) = ofBit bit := by
  cases bit <;> rfl

@[simp] theorem unmark_seedStart : unmark seedStart = seedStart := rfl

@[simp] theorem unmark_seedEnd : unmark seedEnd = seedEnd := rfl

@[simp] theorem unmark_entryEnd : unmark entryEnd = entryEnd := rfl

@[simp] theorem unmark_openEntryEnd :
    unmark openEntryEnd = openEntryEnd := rfl

@[simp] theorem unmark_blank : unmark blank = blank := rfl

@[simp] theorem ofBit_mem_bits (bit : Bool) : ofBit bit ∈ bits := by
  cases bit <;> simp [bits]

@[simp] theorem markOf_mem_marks (bit : Bool) : markOf bit ∈ marks := by
  cases bit <;> simp [marks]

end Symbol

/-- A row of blanks. -/
def blanks (count : Nat) : List Char :=
  List.replicate count Symbol.blank

@[simp] theorem blanks_zero : blanks 0 = [] := rfl

theorem blanks_succ (count : Nat) :
    blanks (count + 1) = Symbol.blank :: blanks count := rfl

theorem blanks_succ' (count : Nat) :
    blanks (count + 1) = blanks count ++ [Symbol.blank] :=
  List.replicate_succ'

/-- At least one blank is kept or made. -/
theorem blanks_max_one (count : Nat) :
    blanks (max count 1) = blanks (count - 1) ++ [Symbol.blank] := by
  rw [← blanks_succ']
  congr 1
  omega

theorem blanks_append_blanks (first second : Nat) :
    blanks first ++ blanks second = blanks (first + second) :=
  List.replicate_append_replicate

@[simp] theorem map_unmark_blanks (count : Nat) :
    (blanks count).map Symbol.unmark = blanks count := by
  simp [blanks]

@[simp] theorem blanks_subset {symbols : List Char}
    (hblank : Symbol.blank ∈ symbols) (count : Nat) :
    blanks count ⊆ symbols := by
  intro symbol hsymbol
  rw [List.eq_of_mem_replicate hsymbol]
  exact hblank

/-- With the head left of a cut behind blanks there is always a blank under
the head, a new one if need be. -/
theorem Tape.leftOf_blanks (count : Nat) (right : List Char) :
    Tape.leftOf (blanks count) right =
      Tape.rightOf (blanks (count - 1)) (Symbol.blank :: right) := by
  cases count with
  | zero => rfl
  | succ count => rw [blanks_succ', Tape.leftOf_concat]; rfl

/-- With the head right of a cut before blanks there is always a blank under
the head, a new one if need be. -/
theorem Tape.rightOf_blanks (left : List Char) (count : Nat) :
    Tape.rightOf left (blanks count) =
      Tape.rightOf left (Symbol.blank :: blanks (count - 1)) := by
  cases count with
  | zero => rfl
  | succ count => rfl

namespace Word

@[simp] theorem cells_nil : cells [] = [] := rfl

@[simp] theorem cells_cons (bit : Bool) (word : Word) :
    cells (bit :: word) = Symbol.ofBit bit :: cells word := rfl

@[simp] theorem cells_append (first second : Word) :
    cells (first ++ second) = cells first ++ cells second :=
  List.map_append

@[simp] theorem length_cells (word : Word) :
    word.cells.length = word.length :=
  List.length_map _

@[simp] theorem cells_subset {symbols : List Char} (word : Word)
    (hfalse : Symbol.ofBit false ∈ symbols)
    (htrue : Symbol.ofBit true ∈ symbols) : word.cells ⊆ symbols := by
  intro symbol hsymbol
  obtain ⟨bit, -, rfl⟩ := List.mem_map.mp hsymbol
  cases bit
  · exact hfalse
  · exact htrue

theorem cells_subset_bits (word : Word) : word.cells ⊆ Symbol.bits := by
  simp

/-- The cells of a word all of whose bits have been replaced by markers. -/
def marks (word : Word) : List Char := word.map Symbol.markOf

@[simp] theorem marks_nil : marks [] = [] := rfl

@[simp] theorem marks_cons (bit : Bool) (word : Word) :
    marks (bit :: word) = Symbol.markOf bit :: marks word := rfl

@[simp] theorem marks_subset {symbols : List Char} (word : Word)
    (hfalse : Symbol.markOf false ∈ symbols)
    (htrue : Symbol.markOf true ∈ symbols) : word.marks ⊆ symbols := by
  intro symbol hsymbol
  obtain ⟨bit, -, rfl⟩ := List.mem_map.mp hsymbol
  cases bit
  · exact hfalse
  · exact htrue

theorem marks_subset_marks (word : Word) :
    word.marks ⊆ Symbol.marks := by
  simp

@[simp] theorem map_unmark_cells (word : Word) :
    word.cells.map Symbol.unmark = word.cells := by
  simp [cells]

@[simp] theorem map_unmark_marks (word : Word) :
    word.marks.map Symbol.unmark = word.cells := by
  simp [marks, cells]

end Word

/-- The cells of a log: each entry with its terminator. -/
def logCells (entries : List Word) : List Char :=
  entries.flatMap fun entry => entry.cells ++ [Symbol.entryEnd]

@[simp] theorem logCells_nil : logCells [] = [] := rfl

@[simp] theorem logCells_cons (entry : Word) (entries : List Word) :
    logCells (entry :: entries) =
      entry.cells ++ Symbol.entryEnd :: logCells entries := by
  simp [logCells]

@[simp] theorem logCells_append (first second : List Word) :
    logCells (first ++ second) = logCells first ++ logCells second := by
  simp [logCells]

@[simp] theorem map_unmark_logCells (entries : List Word) :
    (logCells entries).map Symbol.unmark = logCells entries := by
  induction entries with
  | nil => rfl
  | cons entry entries ih => simp [ih]

@[simp] theorem logCells_subset {symbols : List Char} (entries : List Word)
    (hfalse : Symbol.ofBit false ∈ symbols)
    (htrue : Symbol.ofBit true ∈ symbols)
    (hend : Symbol.entryEnd ∈ symbols) : logCells entries ⊆ symbols := by
  induction entries with
  | nil => simp
  | cons entry entries ih =>
      rw [logCells_cons, List.append_subset, List.cons_subset]
      exact ⟨entry.cells_subset hfalse htrue, hend, ih⟩

end XorOrbit
