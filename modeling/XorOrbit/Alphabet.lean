/-!
# The tape alphabet

The symbols that synthesized programs read and write.  A tape carries a scratch
word, a seed and a log of earlier seeds:

    ... _ _ scratch @ seed # entry $ entry $ ... _ _ ...

A bit that is being carried somewhere is replaced by its marker, which
remembers the bit.  Finding the marker again both locates the cell and tells
what stood there.
-/

namespace XorOrbit.Symbol

/-- The blank cell. -/
def blank : Char := '_'

/-- Stands between the scratch word and the seed. -/
def seedStart : Char := '@'

/-- Stands between the seed and the log. -/
def seedEnd : Char := '#'

/-- Terminates a finished log entry. -/
def entryEnd : Char := '$'

/-- Terminates the log entry that is being compared with the older ones. -/
def openEntryEnd : Char := '&'

/-- The symbol of a bit. -/
def ofBit : Bool → Char
  | false => '0'
  | true => '1'

/-- The marker that stands in for a bit while the head is away. -/
def markOf : Bool → Char
  | false => 'A'
  | true => 'B'

/-- The two bit symbols. -/
def bits : List Char := [ofBit false, ofBit true]

/-- The two markers. -/
def marks : List Char := [markOf false, markOf true]

/-- The lowest bit of a number. -/
def lowBit (n : Nat) : Bool := n % 2 == 1

theorem ofBit_inj {b c : Bool} : ofBit b = ofBit c ↔ b = c := by
  cases b <;> cases c <;> decide

theorem markOf_inj {b c : Bool} : markOf b = markOf c ↔ b = c := by
  cases b <;> cases c <;> decide

theorem ofBit_ne_markOf (b c : Bool) : ofBit b ≠ markOf c := by
  cases b <;> cases c <;> decide

end XorOrbit.Symbol
