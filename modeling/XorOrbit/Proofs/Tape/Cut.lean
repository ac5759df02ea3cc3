import XorOrbit.Alphabet
import XorOrbit.Tape

/-!
# Tapes cut beside the head

A tape is written as the cells left of a cut and the cells right of it, both in
reading order, with the head on one of the two cells at the cut.  In this form
a move of the head only moves the cut, so that a sweep over a row of cells
leaves the whole row as it was.  All tapes here are blank outside their cells.
-/

namespace XorOrbit.Tape

/-- The tape whose head is on the first cell right of the cut. -/
def rightOf (left right : List Char) : Tape where
  before := left.reverse
  focus := right.headD Symbol.blank
  after := right.tail
  blank := Symbol.blank

/-- The tape whose head is on the last cell left of the cut. -/
def leftOf (left right : List Char) : Tape where
  before := left.reverse.tail
  focus := left.reverse.headD Symbol.blank
  after := right
  blank := Symbol.blank

/-- The cell under the head can be put on either side of the cut. -/
theorem leftOf_concat (left right : List Char) (symbol : Char) :
    leftOf (left ++ [symbol]) right = rightOf left (symbol :: right) := by
  simp [leftOf, rightOf]

theorem cells_rightOf_cons (left right : List Char) (symbol : Char) :
    (rightOf left (symbol :: right)).cells = left ++ symbol :: right := by
  simp [rightOf, cells]

/-- Writing and moving right moves the cut over the written cell. -/
theorem shift_right_rightOf
    (left right : List Char) (symbol written : Char) :
    ((rightOf left (symbol :: right)).write written).shift .right =
      rightOf (left ++ [written]) right := by
  cases right <;> simp [rightOf, write, shift]

/-- Writing and moving left keeps the cut and turns to its other side. -/
theorem shift_left_rightOf
    (left right : List Char) (symbol written : Char) :
    ((rightOf left (symbol :: right)).write written).shift .left =
      leftOf left (written :: right) := by
  obtain hleft | ⟨rest, last, rfl⟩ := left.eq_nil_or_concat
  · subst hleft
    simp [rightOf, leftOf, write, shift]
  · simp [rightOf, leftOf, write, shift]

theorem shift_stay_rightOf
    (left right : List Char) (symbol written : Char) :
    ((rightOf left (symbol :: right)).write written).shift .stay =
      rightOf left (written :: right) := by
  simp [rightOf, write, shift]

/-- A fresh tape is cut at its head. -/
theorem ofCells_append (left right : List Char) :
    ofCells (left ++ right) left.length Symbol.blank =
      rightOf left right := by
  cases right <;> simp [ofCells, rightOf]

end XorOrbit.Tape
