import XorOrbit.Alphabet
import XorOrbit.Program.Transition

/-!
# Phrases

The recurring groups of rules from which subroutines are put together: crossing
cells, marking a bit before it is carried away, and finding the marker again.
-/

namespace XorOrbit

/-- What is written over a marker once it has been found. -/
inductive Restore
  /-- The bit that the marker stands for. -/
  | kept
  /-- A given bit. -/
  | bit (value : Bool)
deriving DecidableEq

/-- The bit to write over the marker of `marked`. -/
def Restore.value (restore : Restore) (marked : Bool) : Bool :=
  match restore with
  | kept => marked
  | bit value => value

namespace Phrase

/-- Moves over the symbols without changing them and goes on in `next`. -/
def cross (state : String) (symbols : List Char) (direction : Direction)
    (next : String) : List Rule :=
  symbols.map fun symbol => ⟨state, symbol, symbol, direction, next⟩

/-- Moves over the symbols without changing them or the state. -/
def pass (state : String) (symbols : List Char) (direction : Direction) :
    List Rule :=
  cross state symbols direction state

/-- Replaces a bit by its marker and goes on in the state for that bit. -/
def mark (state : String) (direction : Direction) (next : Bool → String) :
    List Rule :=
  [false, true].map fun bit =>
    ⟨state, Symbol.ofBit bit, Symbol.markOf bit, direction, next bit⟩

/-- Replaces either marker by a bit. -/
def restore (state : String) (value : Restore) (direction : Direction)
    (next : String) : List Rule :=
  [false, true].map fun bit =>
    ⟨state, Symbol.markOf bit, Symbol.ofBit (value.value bit), direction, next⟩

/-- Crosses the symbols in `direction` until a marker shows up and replaces
it. -/
def findMark (state : String) (symbols : List Char) (direction : Direction)
    (value : Restore) (turn : Direction) (next : String) : List Rule :=
  pass state symbols direction ++ restore state value turn next

/-- Crosses the symbols in `direction` until `target`, which stays in place. -/
def travel (state : String) (symbols : List Char) (direction : Direction)
    (target : Char) (turn : Direction) (next : String) : List Rule :=
  pass state symbols direction ++ [⟨state, target, target, turn, next⟩]

end Phrase

end XorOrbit
