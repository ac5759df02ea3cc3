import XorOrbit.Synthesis.ScratchWalk

/-!
# Combining the scratch word with the shifted seed

The subroutine that replaces scratch bit `i` by its exclusive or with seed bit
`i + offset`.  Seed positions outside the word count as zero.  The seed is only
read.
-/

namespace XorOrbit.Synthesis

/-- The seed bit that scratch bit `index` is combined with, if the word has
one. -/
def xorTarget? (layout : Layout) (offset : Int) (index : Nat) : Option Nat :=
  let target := (index : Int) + offset
  if 0 ≤ target ∧ target < layout.wordLength then some target.toNat else none

/-- What is done at a visit: read the seed bit and come back with the exclusive
or, or turn around at once if there is no such bit. -/
def xorVisitRules (layout : Layout) (offset : Int) (ns : Namespace)
    (visit : Visit) : List Rule :=
  match xorTarget? layout offset visit.index with
  | none => Phrase.cross visit.state Symbol.bits .left (visit.back visit.bit)
  | some target =>
    let probe := seekState ns visit target
    seekRules ns visit target ++
      [false, true].map fun bit =>
        ⟨probe, Symbol.ofBit bit, Symbol.ofBit bit, .left,
          visit.back (Bool.xor visit.bit bit)⟩

/-- The subroutine that combines the scratch word with the seed shifted by
`offset`, to the left if it is positive. -/
def xorOffset (start done : String) (offset : Int) (layout : Layout)
    (ns : Namespace) : Except Error Fragment :=
  scratchWalk start done layout ns fun visit =>
    .ofRules (xorVisitRules layout offset ns visit)

end XorOrbit.Synthesis
