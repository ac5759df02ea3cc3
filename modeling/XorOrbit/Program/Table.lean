import Std.Data.ExtTreeMap
import Std.Data.ExtTreeSet
import XorOrbit.Program.Transition

/-!
# Rule tables

A table gives each defined state its row, and a row gives each symbol that the
state reads its transition.  States and symbols are kept in code point order,
which is the order of every listing, and two tables are equal exactly if they
define the same states with the same rules.  A state may be defined without
having any rule.
-/

namespace XorOrbit

/-- The rules of one state, by the symbol read. -/
abbrev Row := Std.ExtTreeMap Char Transition

/-- The rules of all defined states. -/
abbrev Table := Std.ExtTreeMap String Row

namespace Table

instance : DecidableEq Table := inferInstance

/-- The transition for a state and the symbol that it reads. -/
def transition? (table : Table) (state : String) (symbol : Char) :
    Option Transition := do
  let row ← table[state]?
  row[symbol]?

/-- The number of rules. -/
def transitionCount (table : Table) : Nat :=
  table.foldl (fun count _ row => count + row.size) 0

/-- The states that the rules of a state lead to. -/
def successors (table : Table) (state : String) : List String :=
  match table[state]? with
  | none => []
  | some row => row.toList.map (·.2.nextState)

/-- All rules, by state and then by the symbol read. -/
def rules (table : Table) : List Rule :=
  table.toList.flatMap fun (state, row) =>
    row.toList.map fun (symbol, transition) =>
      ⟨state, symbol, transition.write, transition.direction,
        transition.nextState⟩

end Table

end XorOrbit
