import XorOrbit.Program
import XorOrbit.Program.Defect

/-!
# Analysis of programs

`Program.analyze` looks for defects in a fixed order and reports the first kind
it meets.  A program without defects never gets stuck in a state that nothing
defines, and has no rule that could not be used.
-/

namespace XorOrbit.Program

/-- Whether a run can go on from the state or ends in it on purpose. -/
def isKnown (program : Program) (state : String) : Bool :=
  program.table.contains state || program.isAccepting state

/-- The accepting states that have rules, which could never fire. -/
def acceptingWithRules (program : Program) : List String :=
  program.accepting.toList.filter fun state =>
    match program.table[state]? with
    | none => false
    | some row => !row.isEmpty

/-- The rules that lead to an unknown state. -/
def danglingRules (program : Program) : List DanglingRule :=
  (program.table.rules.filter (!program.isKnown ·.next)).map fun rule =>
    ⟨rule.state, rule.read, rule.next⟩

/-- Follows all rules from the pending states and adds the states met to
`visited`; each round takes one state off the list. -/
def explore (table : Table) :
    Nat → Std.ExtTreeSet String → List String → Std.ExtTreeSet String
  | 0, visited, _ => visited
  | _ + 1, visited, [] => visited
  | rounds + 1, visited, state :: pending =>
    if state ∈ visited then explore table rounds visited pending
    else
      explore table rounds (visited.insert state)
        (table.successors state ++ pending)

/-- The states that a chain of rules leads to from the initial state.  Every
rule puts its next state on the list at most once, which bounds the search. -/
def reachable (program : Program) : Std.ExtTreeSet String :=
  explore program.table (program.table.transitionCount + 1) ∅
    [program.initialState]

/-- The defined states that are not reachable. -/
def unreachableStates (program : Program) : List String :=
  let reached := program.reachable
  program.table.keys.filter (· ∉ reached)

/-- The symbols that some rule reads. -/
def readSymbols (program : Program) : Std.ExtTreeSet Char :=
  program.table.foldl
    (fun symbols _ row => symbols.insertMany row.keys) ∅

/-- The symbols on the tape that are not blank and that no rule reads. -/
def unreadSymbols (program : Program) : List Char :=
  let handled := program.readSymbols.insert program.blank
  (Std.ExtTreeSet.ofList (program.tape.filter (· ∉ handled))).toList

/-- The first defect of the program, or nothing. -/
def defect? (program : Program) : Option Defect :=
  if program.tape.isEmpty then some .emptyTape
  else if program.acceptingWithRules ≠ [] then
    some (.acceptingWithRules program.acceptingWithRules)
  else if program.tape.length ≤ program.head then
    some (.headOffTape program.head)
  else if !program.isKnown program.initialState then
    some (.undefinedStart program.initialState)
  else if program.danglingRules ≠ [] then
    some (.undefinedNext program.danglingRules)
  else if program.unreachableStates ≠ [] then
    some (.unreachable program.unreachableStates)
  else if program.unreadSymbols ≠ [] then
    some (.unreadSymbols program.unreadSymbols)
  else none

end XorOrbit.Program
