import XorOrbit.Proofs.Program.Analysis

/-!
# Well-formed programs

The analysis finds no defect exactly if a program is well-formed, and it reports
unreachable states exactly if these are the first thing that is wrong.  What it
takes for reachable does not depend on the bound of its search: a search that
goes on until no state is pending comes to an end with the same states.
-/

namespace XorOrbit

namespace Program

/-- What a run of the program relies on. -/
structure Runnable (program : Program) : Prop where
  tape_ne_nil : program.tape ≠ []
  /-- Accepting states have no rules. -/
  transition?_accepting : ∀ state, program.isAccepting state = true →
    ∀ symbol, program.transition? state symbol = none
  head_lt : program.head < program.tape.length
  /-- The initial state is defined or accepting. -/
  initialState_known : program.isAccepting program.initialState = true ∨
    program.initialState ∈ program.table
  /-- So is every state that a rule leads to. -/
  nextState_known : ∀ state symbol transition,
    program.transition? state symbol = some transition →
      program.isAccepting transition.nextState = true ∨
        transition.nextState ∈ program.table

/-- A program that can be run and in which nothing is left over. -/
structure WellFormed (program : Program) : Prop extends
    Runnable program where
  /-- Rules lead from the initial state to every defined one. -/
  reachable : ∀ state ∈ program.table,
    program.table.Reaches program.initialState state
  /-- Every symbol on the tape is blank or read by a rule. -/
  symbol_read : ∀ symbol ∈ program.tape, symbol = program.blank ∨
    ∃ state transition, program.transition? state symbol = some transition

/-- The search for reachable states without a bound: from the visited and the
pending states it comes to an end with the states found. -/
inductive Searched (table : Table) :
    Std.ExtTreeSet String → List String → Std.ExtTreeSet String → Prop
  | finish (visited : Std.ExtTreeSet String) : Searched table visited [] visited
  | skip {visited found : Std.ExtTreeSet String} {state : String}
      {pending : List String} (hold : state ∈ visited)
      (hrest : Searched table visited pending found) :
      Searched table visited (state :: pending) found
  | visit {visited found : Std.ExtTreeSet String} {state : String}
      {pending : List String} (hnew : state ∉ visited)
      (hrest : Searched table (visited.insert state)
        (table.successors state ++ pending) found) :
      Searched table visited (state :: pending) found

/-- Given as many rounds as there can be states to take off the list, the
bounded search is the one without a bound. -/
theorem searched_explore (table : Table) (rounds : Nat)
    (visited : Std.ExtTreeSet String) (pending : List String)
    (hrounds : pending.length + unvisitedCount table visited ≤ rounds) :
    Searched table visited pending
      (explore table rounds visited pending) := by
  induction rounds generalizing visited pending with
  | zero =>
      obtain rfl : pending = [] :=
        List.eq_nil_of_length_eq_zero (by omega)
      exact .finish visited
  | succ rounds ih =>
      cases pending with
      | nil => exact .finish visited
      | cons state pending =>
          rw [List.length_cons] at hrounds
          rw [explore]
          split
          · next hold => exact .skip hold (ih visited pending (by omega))
          · next hnew =>
              have hcount := unvisitedCount_insert table hnew
              refine .visit hnew (ih _ _ ?_)
              rw [List.length_append]
              omega

theorem searched_reachable (program : Program) :
    Searched program.table ∅ [program.initialState] program.reachable := by
  apply searched_explore
  rw [unvisitedCount_empty, List.length_singleton]
  omega

section Reports

variable (program : Program)

/-- The checks that come before the one for unreachable states. -/
theorem runnable_iff :
    program.Runnable ↔ program.tape.isEmpty = false ∧
      program.acceptingWithRules = [] ∧
      ¬ program.tape.length ≤ program.head ∧
      program.isKnown program.initialState = true ∧
      program.danglingRules = [] := by
  rw [acceptingWithRules_eq_nil_iff, danglingRules_eq_nil_iff, Nat.not_le,
    List.isEmpty_eq_false_iff]
  simp only [isKnown_iff]
  constructor
  · rintro ⟨htape, haccepting, hhead, hinitial, hnext⟩
    exact ⟨htape, haccepting, hhead, hinitial, hnext⟩
  · rintro ⟨htape, haccepting, hhead, hinitial, hnext⟩
    exact ⟨htape, haccepting, hhead, hinitial, hnext⟩

theorem defect?_eq_none_iff_wellFormed :
    program.defect? = none ↔ program.WellFormed := by
  rw [defect?_eq_none_iff]
  simp only [isKnown_iff]
  constructor
  · rintro ⟨htape, haccepting, hhead, hinitial, hnext, hreachable, hread⟩
    exact ⟨⟨htape, haccepting, hhead, hinitial, hnext⟩, hreachable, hread⟩
  · rintro ⟨⟨htape, haccepting, hhead, hinitial, hnext⟩, hreachable, hread⟩
    exact ⟨htape, haccepting, hhead, hinitial, hnext, hreachable, hread⟩

/-- Unreachable states are reported where all checks before find nothing. -/
theorem defect?_eq_unreachable_iff (states : List String) :
    program.defect? = some (.unreachable states) ↔
      program.Runnable ∧ program.unreachableStates ≠ [] ∧
        program.unreachableStates = states := by
  rw [runnable_iff, defect?]
  split_ifs <;> simp_all

theorem mem_unreachableStates_iff (state : String) :
    state ∈ program.unreachableStates ↔ state ∈ program.table ∧
      ¬ program.table.Reaches program.initialState state := by
  rw [unreachableStates, List.mem_filter, Std.ExtTreeMap.mem_keys,
    decide_eq_true_eq, mem_reachable_iff]

/-- Defined states are listed in the order of their code points. -/
theorem pairwise_unreachableStates :
    program.unreachableStates.Pairwise (· < ·) := by
  have hkeys : program.table.keys.Pairwise (· < ·) := by
    refine Std.ExtTreeMap.ordered_keys.imp ?_
    intro first second hlt
    exact compareOfLessAndEq_eq_lt.mp hlt
  exact hkeys.filter _

end Reports

/-- The analysis finds no defect exactly if the program is well-formed.  If the
unreachable states are the first defect, all of them are reported, each once
and in the order of their code points. -/
theorem analysis_decides_wellFormed (program : Program) :
    Searched program.table ∅ [program.initialState] program.reachable ∧
    (program.defect? = none ↔ program.WellFormed) ∧
    ((∃ states, program.defect? = some (.unreachable states)) ↔
      program.Runnable ∧ ∃ state ∈ program.table,
        ¬ program.table.Reaches program.initialState state) ∧
    ∀ states, program.defect? = some (.unreachable states) →
      states.Pairwise (· < ·) ∧
      ∀ state, state ∈ states ↔ state ∈ program.table ∧
        ¬ program.table.Reaches program.initialState state := by
  refine ⟨searched_reachable program,
    defect?_eq_none_iff_wellFormed program, ?_, ?_⟩
  · have hsome : program.unreachableStates ≠ [] ↔
        ∃ state ∈ program.table,
          ¬ program.table.Reaches program.initialState state := by
      rw [Ne, unreachableStates_eq_nil_iff]
      push Not
      rfl
    simp only [defect?_eq_unreachable_iff, hsome]
    constructor
    · rintro ⟨-, hrunnable, hunreachable, -⟩
      exact ⟨hrunnable, hunreachable⟩
    · rintro ⟨hrunnable, hunreachable⟩
      exact ⟨_, hrunnable, hunreachable, rfl⟩
  · intro states hstates
    obtain ⟨-, -, rfl⟩ := (defect?_eq_unreachable_iff program states).mp hstates
    exact ⟨pairwise_unreachableStates program,
      mem_unreachableStates_iff program⟩

/-- A loop of rules that never gets to two of the defined states. -/
example :
    let row (next : String) : Row := (∅ : Row).insert '_' ⟨next, '_', .stay⟩
    let program : Program :=
      { name := "loop", initialState := "start", tape := ['x'], head := 0
        blank := '_', accepting := ∅
        table := ((((∅ : Table).insert "start" (row "loop")).insert
          "loop" (row "start")).insert "lost" (row "astray")).insert
          "astray" (row "loop") }
    program.defect? = some (.unreachable ["astray", "lost"]) := by
  decide +kernel

end Program

end XorOrbit
