import Mathlib.Algebra.GroupWithZero.Nat
import XorOrbit.Program.Table

/-!
# Looking up rules

All questions about a table come down to `Table.transition?`: what changes when
a rule is added or tables are united, which states a state leads to, and which
rules the table lists.
-/

namespace XorOrbit

/-- The state and the symbol that a rule is for. -/
def Rule.key (rule : Rule) : String × Char := (rule.state, rule.read)

/-- A rule is given by what it is for and what it does. -/
theorem Rule.ext_key {first second : Rule}
    (hkey : first.key = (second.state, second.read))
    (htransition : first.transition = second.transition) :
    first = second := by
  cases first
  cases second
  simp_all [Rule.key, Rule.transition]

namespace Table

/-- A state that is not defined has the empty row. -/
theorem transition?_eq_getElem?_getD (table : Table) (state : String)
    (symbol : Char) :
    table.transition? state symbol =
      (table.getD state (∅ : Row))[symbol]? := by
  rw [transition?, Std.ExtTreeMap.getD_eq_getD_getElem?]
  cases table[state]? with
  | none => simp
  | some row => rfl

theorem transition?_insert (table : Table) (rule : Rule) (state : String)
    (symbol : Char) :
    Table.transition? (table.insert rule.state
        ((table.getD rule.state ∅).insert rule.read rule.transition))
      state symbol =
      if rule.key = (state, symbol) then some rule.transition
      else table.transition? state symbol := by
  rw [transition?_eq_getElem?_getD, transition?_eq_getElem?_getD,
    Std.ExtTreeMap.getD_insert]
  simp only [Std.LawfulEqOrd.compare_eq_iff_eq, Rule.key, Prod.mk.injEq]
  by_cases hstate : rule.state = state
  · subst hstate
    simp only [if_true, true_and, Std.ExtTreeMap.getElem?_insert,
      Std.LawfulEqOrd.compare_eq_iff_eq]
  · simp [hstate]

theorem transition?_union {first second : Table}
    (hdisjoint : ∀ state ∈ second, state ∉ first) (state : String)
    (symbol : Char) (transition : Transition) :
    Table.transition? (first ∪ second) state symbol = some transition ↔
      first.transition? state symbol = some transition ∨
        second.transition? state symbol = some transition := by
  by_cases hmem : state ∈ second
  · have hfirst := hdisjoint state hmem
    simp [transition?, hfirst,
      Std.ExtTreeMap.getElem?_union_of_not_mem_left hfirst]
  · simp [transition?, hmem,
      Std.ExtTreeMap.getElem?_union_of_not_mem_right hmem]

theorem transition?_eq_some_iff {table : Table} {state : String}
    {symbol : Char} {transition : Transition} :
    table.transition? state symbol = some transition ↔
      ∃ row, table[state]? = some row ∧ row[symbol]? = some transition := by
  simp [transition?, Option.bind_eq_some_iff]

/-- Tables are equal if they define the same states with the same rules. -/
theorem ext_transition? {first second : Table}
    (hmem : ∀ state, state ∈ first ↔ state ∈ second)
    (hrules : ∀ state symbol,
      first.transition? state symbol = second.transition? state symbol) :
    first = second := by
  apply Std.ExtTreeMap.ext_getElem?
  intro state
  have hstate := hmem state
  have hrow := hrules state
  simp only [transition?] at hrow
  rw [← Std.ExtTreeMap.isSome_getElem?_iff_mem,
    ← Std.ExtTreeMap.isSome_getElem?_iff_mem] at hstate
  cases hfirst : first[state]? with
  | none =>
      cases hsecond : second[state]? with
      | none => rfl
      | some row => simp [hfirst, hsecond] at hstate
  | some row =>
      cases hsecond : second[state]? with
      | none => simp [hfirst, hsecond] at hstate
      | some row' =>
          simp only [hfirst, hsecond, Option.bind_eq_bind, Option.bind_some]
            at hrow
          exact congrArg some (Std.ExtTreeMap.ext_getElem? hrow)

/-- A state with a rule is defined. -/
theorem mem_of_transition? {table : Table} {state : String} {symbol : Char}
    {transition : Transition}
    (htransition : table.transition? state symbol = some transition) :
    state ∈ table := by
  obtain ⟨row, hrow, -⟩ := transition?_eq_some_iff.mp htransition
  rw [← Std.ExtTreeMap.isSome_getElem?_iff_mem, hrow]
  rfl

/-- The successors are the states that some rule leads to. -/
theorem mem_successors {table : Table} {state next : String} :
    next ∈ table.successors state ↔
      ∃ symbol transition,
        table.transition? state symbol = some transition ∧
          transition.nextState = next := by
  rw [successors]
  cases hrow : table[state]? with
  | none => simp [transition?, hrow]
  | some row =>
      simp [transition?, hrow, Std.ExtTreeMap.mem_toList_iff_getElem?_eq_some]

theorem mem_rules {table : Table} {rule : Rule} :
    rule ∈ table.rules ↔
      table.transition? rule.state rule.read = some rule.transition := by
  simp only [rules, List.mem_flatMap, List.mem_map, Prod.exists,
    Std.ExtTreeMap.mem_toList_iff_getElem?_eq_some, transition?_eq_some_iff]
  constructor
  · rintro ⟨state, row, hrow, symbol, transition, htransition, rfl⟩
    exact ⟨row, hrow, htransition⟩
  · rintro ⟨row, hrow, htransition⟩
    exact ⟨rule.state, row, hrow, rule.read, rule.transition, htransition,
      rfl⟩

/-- A state that is not defined has no successors. -/
theorem successors_of_notMem {table : Table} {state : String}
    (hstate : state ∉ table) : table.successors state = [] := by
  rw [successors, Std.ExtTreeMap.getElem?_eq_none hstate]

/-- Every rule puts one state on the list of its state's successors. -/
theorem transitionCount_eq_sum (table : Table) :
    table.transitionCount =
      (table.keys.map fun state =>
        (table.successors state).length).sum := by
  have hsize : ∀ item ∈ table.toList,
      (table.successors item.1).length = item.2.size := by
    intro item hitem
    have hrow := Std.ExtTreeMap.mem_toList_iff_getElem?_eq_some.mp hitem
    simp [successors, hrow]
  rw [transitionCount, Std.ExtTreeMap.foldl_eq_foldl_toList,
    ← Std.ExtTreeMap.map_fst_toList_eq_keys, List.map_map]
  rw [Function.comp_def, List.map_congr_left hsize, List.sum_eq_foldl_nat,
    List.foldl_map]

end Table

end XorOrbit
