import XorOrbit.Fragment
import XorOrbit.Fragment.Phrase
import XorOrbit.Layout
import XorOrbit.Namespace

/-!
# Walking over the scratch word

Several subroutines have one outer shape: each scratch bit, from left to right,
is marked and carried across the seed start, something is done in the seed, and
the head comes back to overwrite the marker.  What is done is a parameter: a
function that answers each `Visit` with the fragment that does it.
-/

namespace XorOrbit.Synthesis

/-- One value of one scratch bit, carried into the seed. -/
structure Visit where
  /-- The index of the scratch bit, counted from the left. -/
  index : Nat
  /-- The value of the scratch bit. -/
  bit : Bool
  /-- The state in which the head stands on the first seed bit. -/
  state : String
  /-- The state that walks back and writes the given bit over the marker; it is
  entered by a move to the left out of the seed. -/
  back : Bool → String

namespace ScratchWalk

/-- The state that walks back to scratch bit `index` and writes `bit`. -/
def returnState (ns : Namespace) (index : Nat) (bit : Bool) : String :=
  let b := Symbol.ofBit bit
  ns.state s!"return_{index}_{b}"

/-- The state that carries `bit` from scratch bit `index` to the seed. -/
def carryState (ns : Namespace) (index : Nat) (bit : Bool) : String :=
  let b := Symbol.ofBit bit
  ns.state s!"carry_{index}_{b}"

/-- The visit of scratch bit `index` with the value `bit`. -/
def visit (ns : Namespace) (index : Nat) (bit : Bool) : Visit :=
  let b := Symbol.ofBit bit
  { index, bit, state := ns.state s!"act_{index}_{b}"
    back := returnState ns index }

/-- All visits of a walk in their order. -/
def visits (layout : Layout) (ns : Namespace) : List Visit :=
  (List.range layout.wordLength).flatMap fun index =>
    [visit ns index false, visit ns index true]

/-- The state that reads scratch bit `index`; after the last bit the head goes
home. -/
def bitState (start : String) (layout : Layout) (ns : Namespace)
    (index : Nat) : String :=
  if index = 0 then start
  else if index = layout.wordLength then ns.state "rewind"
  else ns.state s!"bit_{index}"

/-- The rules that read scratch bit `index`, leave the loop when there is none,
and come back with the new bit. -/
def bitRules (start : String) (layout : Layout) (ns : Namespace)
    (index : Nat) : List Rule :=
  let state := bitState start layout ns index
  let crossing := Symbol.bits ++ [Symbol.seedStart]
  let comeBack (bit : Bool) : List Rule :=
    Phrase.findMark (returnState ns index bit) crossing .left (.bit bit) .right
      (bitState start layout ns (index + 1))
  (if index = 0 then Phrase.pass state [Symbol.blank] .right else []) ++
    Phrase.mark state .right (carryState ns index) ++
    [⟨state, Symbol.seedStart, Symbol.seedStart, .left, ns.state "rewind"⟩] ++
    comeBack false ++ comeBack true

/-- The rules that carry a bit to the place of its visit. -/
def carryRules (ns : Namespace) (visit : Visit) : List Rule :=
  let carry := carryState ns visit.index visit.bit
  Phrase.pass carry Symbol.bits .right ++
    [⟨carry, Symbol.seedStart, Symbol.seedStart, .right, visit.state⟩]

/-- The rules that lead to a visit: those of its scratch bit come with the first
of its two visits. -/
def approachRules (start : String) (layout : Layout) (ns : Namespace)
    (visit : Visit) : List Rule :=
  (if visit.bit then [] else bitRules start layout ns visit.index) ++
    carryRules ns visit

/-- The rules that take the head to the first scratch bit, or to the seed start
if there is none. -/
def homeRules (done : String) (ns : Namespace) : List Rule :=
  let rewind := ns.state "rewind"
  Phrase.pass rewind (Symbol.bits ++ [Symbol.seedStart]) .left ++
    [⟨rewind, Symbol.blank, Symbol.blank, .right, done⟩]

end ScratchWalk

open ScratchWalk in
/-- The walk from `start` to `done` that does `act` at every visit. -/
def scratchWalk (start done : String) (layout : Layout) (ns : Namespace)
    (act : Visit → Fragment) : Except Error Fragment := do
  let walked ← (visits layout ns).foldlM (fun fragment visit =>
    (fragment.addAll (approachRules start layout ns visit)).merge (act visit))
    Fragment.empty
  return walked.addAll (homeRules done ns)

/-- Steps right through the seed, one state per cell, from the place of the
visit.  `seekState ns visit n` is the state that stands on seed bit `n`. -/
def seekState (ns : Namespace) (visit : Visit) (distance : Nat) : String :=
  if distance = 0 then visit.state
  else
    let index := visit.index
    let b := Symbol.ofBit visit.bit
    ns.state s!"seek_{index}_{b}_{distance}"

/-- The rules that take the head from the first seed bit to seed bit
`distance`. -/
def seekRules (ns : Namespace) (visit : Visit) (distance : Nat) : List Rule :=
  (List.range distance).flatMap fun step =>
    Phrase.cross (seekState ns visit step) Symbol.bits .right
      (seekState ns visit (step + 1))

end XorOrbit.Synthesis
