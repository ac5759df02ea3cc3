import XorOrbit.Alphabet
import XorOrbit.Error

/-!
# Tape layout

The geometry that all subroutines share.  The scratch word grows to the left
from the seed start, the seed has a fixed length and is updated in place, and
the log on the right is only ever appended to.
-/

namespace XorOrbit

/-- The number of bits in a seed, which is never zero. -/
structure Layout where
  wordLength : Nat
  wordLength_pos : 0 < wordLength
deriving DecidableEq

namespace Layout

/-- The layout for words of the given length. -/
def ofLength (wordLength : Nat) : Except Error Layout :=
  if h : 0 < wordLength then .ok ⟨wordLength, h⟩
  else .error (.invalidGenerator .zeroWordLength)

/-- The cells of a fresh tape: padding, room for one scratch word, the seed
between its separators, and room for the log. -/
def initialCells (layout : Layout) (seed : String)
    (leftPadding historyReserve : Nat) : List Char :=
  List.replicate (leftPadding + layout.wordLength) Symbol.blank ++
    Symbol.seedStart :: seed.toList ++
    Symbol.seedEnd :: List.replicate historyReserve Symbol.blank

/-- The index of the first seed bit on a fresh tape. -/
def initialHead (layout : Layout) (leftPadding : Nat) : Nat :=
  leftPadding + layout.wordLength + 1

end Layout

end XorOrbit
