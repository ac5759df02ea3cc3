import XorOrbit.Error
import XorOrbit.Program.Table

/-!
# Fragments of rule tables

A fragment is a table under construction.  A rule for a state and symbol that
already have one is not added, but remembered as a conflict; merging refuses
fragments with a conflict and fragments that define a common state, and leaves
the fragment it would have changed as it was.
-/

namespace XorOrbit

/-- A table and the first state that was given two rules for one symbol. -/
structure Fragment where
  table : Table
  conflict : Option String
deriving DecidableEq

namespace Fragment

/-- The fragment without states. -/
def empty : Fragment := ⟨∅, none⟩

/-- Adds a rule, or remembers its state as a conflict. -/
def add (fragment : Fragment) (rule : Rule) : Fragment :=
  let row := fragment.table.getD rule.state ∅
  if rule.read ∈ row then
    { fragment with conflict := fragment.conflict.or (some rule.state) }
  else
    { fragment with
      table := fragment.table.insert rule.state
        (row.insert rule.read rule.transition) }

/-- Adds rules in the given order. -/
def addAll (fragment : Fragment) (rules : List Rule) : Fragment :=
  rules.foldl add fragment

/-- The fragment made of the given rules. -/
def ofRules (rules : List Rule) : Fragment := empty.addAll rules

/-- The defined states in code point order. -/
def states (fragment : Fragment) : List String := fragment.table.keys

/-- The number of defined states. -/
def size (fragment : Fragment) : Nat := fragment.table.size

/-- Whether no state is defined. -/
def isEmpty (fragment : Fragment) : Bool := fragment.table.isEmpty

/-- Whether the state is defined. -/
def contains (fragment : Fragment) (state : String) : Bool :=
  fragment.table.contains state

/-- The first of the fragment's states that the other one defines too. -/
def sharedState? (fragment other : Fragment) : Option String :=
  fragment.states.find? other.contains

/-- The union of two fragments without conflicts and common states. -/
def merge (fragment other : Fragment) : Except Error Fragment :=
  match fragment.conflict.or other.conflict with
  | some state => .error (.stateRedefined state)
  | none =>
    match other.sharedState? fragment with
    | some state => .error (.stateRedefined state)
    | none => .ok { fragment with table := fragment.table ∪ other.table }

end Fragment

end XorOrbit
