import XorOrbit.Synthesis.ScratchWalk

/-!
# Committing the scratch word

The subroutine that overwrites the seed with the scratch word, bit by bit.  The
scratch word stays in place, so afterwards both are equal.
-/

namespace XorOrbit.Synthesis

/-- What is done at a visit: go to the seed bit with the same index, overwrite
it and come back with the scratch bit unchanged. -/
def commitVisitRules (ns : Namespace) (visit : Visit) : List Rule :=
  let target := seekState ns visit visit.index
  seekRules ns visit visit.index ++
    Symbol.bits.map fun symbol =>
      ⟨target, symbol, Symbol.ofBit visit.bit, .left, visit.back visit.bit⟩

/-- The subroutine that overwrites the seed with the scratch word. -/
def commitSeed (start done : String) (layout : Layout) (ns : Namespace) :
    Except Error Fragment :=
  scratchWalk start done layout ns fun visit =>
    .ofRules (commitVisitRules ns visit)

end XorOrbit.Synthesis
