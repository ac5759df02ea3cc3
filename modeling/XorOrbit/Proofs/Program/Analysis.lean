import Mathlib.Data.List.Nodup
import Mathlib.Logic.Relation
import XorOrbit.Program.Analysis
import XorOrbit.Proofs.Program.Table

/-!
# What the analysis decides

The search of the analysis has a bounded number of rounds.  The bound is never
met early: the pending states and the successors of the states that have not
been visited yet are never more than the rounds that are left.  So the search
finds exactly the states that a chain of rules leads to, and a program has no
defect exactly if it is well-formed.
-/

namespace XorOrbit

namespace Table

/-- Some rule leads from the first state to the second. -/
def Leads (table : Table) (state next : String) : Prop :=
  ∃ symbol transition, table.transition? state symbol = some transition ∧
    transition.nextState = next

/-- A chain of rules leads from the first state to the second. -/
def Reaches (table : Table) : String → String → Prop :=
  Relation.ReflTransGen table.Leads

end Table

namespace Program

theorem mem_insert_iff {α : Type} [Ord α] [Std.TransOrd α]
    [Std.LawfulEqOrd α] {members : Std.ExtTreeSet α} {member item : α} :
    item ∈ members.insert member ↔ item = member ∨ item ∈ members := by
  rw [Std.ExtTreeSet.mem_insert, Std.LawfulEqOrd.compare_eq_iff_eq]
  exact or_congr_left eq_comm

/-- The number of successors of states that have not been visited. -/
def unvisitedCount (table : Table) (visited : Std.ExtTreeSet String) :
    Nat :=
  (table.keys.map fun state =>
    if state ∈ visited then 0 else (table.successors state).length).sum

theorem unvisitedCount_empty (table : Table) :
    unvisitedCount table ∅ = table.transitionCount := by
  simp [unvisitedCount, Table.transitionCount_eq_sum]

/-- Leaving one more state out of a sum. -/
theorem sum_map_insert_add {states : List String} (hnodup : states.Nodup)
    (count : String → Nat) (visited : Std.ExtTreeSet String)
    {state : String} (hstate : state ∈ states) (hnew : state ∉ visited) :
    (states.map fun other =>
        if other ∈ visited.insert state then 0 else count other).sum +
      count state =
      (states.map fun other =>
        if other ∈ visited then 0 else count other).sum := by
  induction states with
  | nil => simp at hstate
  | cons first states ih =>
      rw [List.nodup_cons] at hnodup
      simp only [List.map_cons, List.sum_cons]
      by_cases heq : first = state
      · subst heq
        have hrest : (states.map fun other =>
            if other ∈ visited.insert first then 0 else count other) =
            states.map fun other =>
              if other ∈ visited then 0 else count other := by
          apply List.map_congr_left
          intro other hother
          have hne : first ≠ other := by
            rintro rfl
            exact hnodup.1 hother
          simp [Std.ExtTreeSet.mem_insert, hne]
        rw [hrest]
        simp [hnew]
        omega
      · have hmem : state ∈ states := by
          simpa [Ne.symm heq] using hstate
        have hother : (first ∈ visited.insert state) = (first ∈ visited) := by
          simp [Std.ExtTreeSet.mem_insert, Ne.symm heq]
        have hrest := ih hnodup.2 hmem
        simp only [hother]
        omega

/-- Visiting a state moves its successors from the states to come to the
pending ones. -/
theorem unvisitedCount_insert (table : Table)
    {visited : Std.ExtTreeSet String} {state : String}
    (hnew : state ∉ visited) :
    unvisitedCount table (visited.insert state) +
        (table.successors state).length ≤ unvisitedCount table visited := by
  by_cases hstate : state ∈ table
  · exact Nat.le_of_eq (sum_map_insert_add Std.ExtTreeMap.nodup_keys _
      visited (Std.ExtTreeMap.mem_keys.mpr hstate) hnew)
  · have hcount : unvisitedCount table (visited.insert state) =
        unvisitedCount table visited := by
      apply congrArg List.sum
      apply List.map_congr_left
      intro other hother
      have hne : state ≠ other := by
        rintro rfl
        exact hstate (Std.ExtTreeMap.mem_keys.mp hother)
      simp [Std.ExtTreeSet.mem_insert, hne]
    rw [hcount, Table.successors_of_notMem hstate]
    exact Nat.le_refl _

/-- Everything that the search finds was visited before or can be reached from
a pending state. -/
theorem explore_sound (table : Table) (rounds : Nat)
    (visited : Std.ExtTreeSet String) (pending : List String)
    {state : String} (hstate : state ∈ explore table rounds visited pending) :
    state ∈ visited ∨ ∃ first ∈ pending, table.Reaches first state := by
  induction rounds generalizing visited pending with
  | zero => exact Or.inl hstate
  | succ rounds ih =>
      cases pending with
      | nil => exact Or.inl hstate
      | cons next pending =>
          rw [explore] at hstate
          split at hstate
          · rcases ih visited pending hstate with hold | ⟨first, hfirst, h⟩
            · exact Or.inl hold
            · exact Or.inr ⟨first, List.mem_cons_of_mem _ hfirst, h⟩
          · rcases ih _ _ hstate with hold | ⟨first, hfirst, hreach⟩
            · rcases mem_insert_iff.mp hold with rfl | hold
              · exact Or.inr ⟨state, List.mem_cons_self,
                  Relation.ReflTransGen.refl⟩
              · exact Or.inl hold
            · rcases List.mem_append.mp hfirst with hsucc | hpending
              · exact Or.inr ⟨next, List.mem_cons_self,
                  Relation.ReflTransGen.head (Table.mem_successors.mp hsucc)
                    hreach⟩
              · exact Or.inr
                  ⟨first, List.mem_cons_of_mem _ hpending, hreach⟩

/-- All successors of visited states are visited or pending. -/
def Covered (table : Table) (visited : Std.ExtTreeSet String)
    (pending : List String) : Prop :=
  ∀ state ∈ visited, ∀ next ∈ table.successors state,
    next ∈ visited ∨ next ∈ pending

section Covered

variable {table : Table} {visited : Std.ExtTreeSet String}
  {first state : String} {pending : List String}

/-- A pending state that has been visited can be dropped. -/
theorem mem_of_visited (hold : first ∈ visited)
    (hstate : state ∈ visited ∨ state ∈ first :: pending) :
    state ∈ visited ∨ state ∈ pending := by
  rcases hstate with hvisited | hpending
  · exact Or.inl hvisited
  · rcases List.mem_cons.mp hpending with rfl | hpending
    · exact Or.inl hold
    · exact Or.inr hpending

/-- A pending state that is visited stays among the states that are visited or
pending. -/
theorem mem_of_insert
    (hstate : state ∈ visited ∨ state ∈ first :: pending) :
    state ∈ visited.insert first ∨
      state ∈ table.successors first ++ pending := by
  rw [mem_insert_iff]
  rcases hstate with hvisited | hpending
  · exact Or.inl (Or.inr hvisited)
  · rcases List.mem_cons.mp hpending with rfl | hpending
    · exact Or.inl (Or.inl rfl)
    · exact Or.inr (List.mem_append_right _ hpending)

theorem Covered.skip (hcovered : Covered table visited (first :: pending))
    (hold : first ∈ visited) : Covered table visited pending :=
  fun state hstate next hnext =>
    mem_of_visited hold (hcovered state hstate next hnext)

theorem Covered.visit (hcovered : Covered table visited (first :: pending)) :
    Covered table (visited.insert first)
      (table.successors first ++ pending) := by
  intro state hstate next hnext
  rcases mem_insert_iff.mp hstate with rfl | hstate
  · exact Or.inr (List.mem_append_left _ hnext)
  · exact mem_of_insert (hcovered state hstate next hnext)

end Covered

/-- If there are enough rounds and all successors of visited states are visited
or pending, the search ends with a set of states that holds the visited and the
pending ones and is closed under taking successors. -/
theorem explore_complete (table : Table) (rounds : Nat)
    (visited : Std.ExtTreeSet String) (pending : List String)
    (hrounds : pending.length + unvisitedCount table visited ≤ rounds)
    (hcovered : Covered table visited pending) :
    (∀ state, state ∈ visited ∨ state ∈ pending →
        state ∈ explore table rounds visited pending) ∧
      Covered table (explore table rounds visited pending) [] := by
  induction rounds generalizing visited pending with
  | zero =>
      have hnil : pending = [] := List.eq_nil_of_length_eq_zero (by omega)
      subst hnil
      exact ⟨fun state hstate => by simpa [explore] using hstate, hcovered⟩
  | succ rounds ih =>
      cases pending with
      | nil =>
          exact ⟨fun state hstate => by simpa [explore] using hstate,
            hcovered⟩
      | cons first pending =>
          rw [List.length_cons] at hrounds
          rw [explore]
          by_cases hold : first ∈ visited
          · rw [if_pos hold]
            obtain ⟨hmem, hclosed⟩ := ih visited pending (by omega)
              (hcovered.skip hold)
            exact ⟨fun state hstate => hmem state (mem_of_visited hold hstate),
              hclosed⟩
          · rw [if_neg hold]
            have hcount := unvisitedCount_insert table hold
            obtain ⟨hmem, hclosed⟩ := ih (visited.insert first)
              (table.successors first ++ pending)
              (by rw [List.length_append]; omega) hcovered.visit
            exact ⟨fun state hstate => hmem state (mem_of_insert hstate),
              hclosed⟩

/-- The search finds exactly the states that a chain of rules leads to. -/
theorem mem_reachable_iff (program : Program) (state : String) :
    state ∈ program.reachable ↔
      program.table.Reaches program.initialState state := by
  constructor
  · intro hstate
    rcases explore_sound _ _ _ _ hstate with hempty | ⟨first, hfirst, hreach⟩
    · simp at hempty
    · rw [List.mem_singleton] at hfirst
      exact hfirst ▸ hreach
  · intro hreach
    obtain ⟨hmem, hclosed⟩ := explore_complete program.table
      (program.table.transitionCount + 1) ∅ [program.initialState]
      (by rw [unvisitedCount_empty, List.length_singleton]; omega)
      (by simp [Covered])
    induction hreach with
    | refl => exact hmem _ (Or.inr List.mem_cons_self)
    | tail _ hleads ih =>
        exact (hclosed _ ih _ (Table.mem_successors.mpr hleads)).resolve_right
          List.not_mem_nil

/-! ## Programs without defects -/

theorem isKnown_iff {program : Program} {state : String} :
    program.isKnown state = true ↔
      program.isAccepting state = true ∨ state ∈ program.table := by
  rw [isKnown, Bool.or_eq_true, Std.ExtTreeMap.contains_iff_mem]
  exact or_comm

section Defects

variable (program : Program)

theorem acceptingWithRules_eq_nil_iff :
    program.acceptingWithRules = [] ↔
      ∀ state, program.isAccepting state = true →
        ∀ symbol, program.transition? state symbol = none := by
  simp only [acceptingWithRules, List.filter_eq_nil_iff,
    Std.ExtTreeSet.mem_toList]
  apply forall_congr'
  intro state
  rw [isAccepting, Std.ExtTreeSet.contains_iff_mem]
  apply imp_congr_right
  intro _
  cases hrow : program.table[state]? with
  | none => simp [transition?, Table.transition?, hrow]
  | some row =>
      have hempty : row.isEmpty = true ↔ ∀ symbol : Char,
          row[symbol]? = none := by
        rw [Std.ExtTreeMap.isEmpty_iff,
          Std.ExtTreeMap.eq_empty_iff_forall_not_mem]
        simp
      simpa [transition?, Table.transition?, hrow] using hempty

theorem danglingRules_eq_nil_iff :
    program.danglingRules = [] ↔
      ∀ state symbol transition,
        program.transition? state symbol = some transition →
          program.isKnown transition.nextState = true := by
  simp only [danglingRules, List.map_eq_nil_iff, List.filter_eq_nil_iff,
    Table.mem_rules]
  constructor
  · intro hrules state symbol transition htransition
    simpa using hrules ⟨state, symbol, transition.write,
      transition.direction, transition.nextState⟩ htransition
  · intro hknown rule hrule
    have hnext : program.isKnown rule.next = true := hknown _ _ _ hrule
    simpa using hnext

theorem unreachableStates_eq_nil_iff :
    program.unreachableStates = [] ↔
      ∀ state ∈ program.table,
        program.table.Reaches program.initialState state := by
  simp only [unreachableStates, List.filter_eq_nil_iff,
    Std.ExtTreeMap.mem_keys, ← mem_reachable_iff]
  simp

theorem mem_foldl_insertMany {rows : List (String × Row)}
    {symbols : Std.ExtTreeSet Char} {symbol : Char} :
    symbol ∈ rows.foldl (fun symbols item => symbols.insertMany item.2.keys)
        symbols ↔
      symbol ∈ symbols ∨ ∃ item ∈ rows, symbol ∈ item.2 := by
  induction rows generalizing symbols with
  | nil => simp
  | cons item rows ih =>
      rw [List.foldl_cons, ih, Std.ExtTreeSet.mem_insertMany_list]
      simp [or_assoc]

theorem mem_readSymbols_iff (symbol : Char) :
    symbol ∈ program.readSymbols ↔
      ∃ state transition,
        program.transition? state symbol = some transition := by
  rw [readSymbols, Std.ExtTreeMap.foldl_eq_foldl_toList,
    mem_foldl_insertMany]
  simp only [Std.ExtTreeSet.not_mem_empty, false_or, Prod.exists,
    Std.ExtTreeMap.mem_toList_iff_getElem?_eq_some]
  constructor
  · rintro ⟨state, row, hrow, hmem⟩
    exact ⟨state, row[symbol], Table.transition?_eq_some_iff.mpr
      ⟨row, hrow, Std.ExtTreeMap.getElem?_eq_some_getElem hmem⟩⟩
  · rintro ⟨state, transition, htransition⟩
    obtain ⟨row, hrow, hsymbol⟩ := Table.transition?_eq_some_iff.mp htransition
    refine ⟨state, row, hrow, ?_⟩
    rw [← Std.ExtTreeMap.isSome_getElem?_iff_mem, hsymbol]
    rfl

theorem unreadSymbols_eq_nil_iff :
    program.unreadSymbols = [] ↔
      ∀ symbol ∈ program.tape, symbol = program.blank ∨
        ∃ state transition,
          program.transition? state symbol = some transition := by
  simp only [unreadSymbols, List.eq_nil_iff_forall_not_mem,
    Std.ExtTreeSet.mem_toList, ← mem_readSymbols_iff]
  apply forall_congr'
  intro symbol
  have hhandled : symbol ∈ program.readSymbols.insert program.blank ↔
      symbol = program.blank ∨ symbol ∈ program.readSymbols :=
    mem_insert_iff
  rw [← hhandled]
  simp [or_iff_not_imp_left]

/-- A program has no defect exactly if it is well-formed. -/
theorem defect?_eq_none_iff :
    program.defect? = none ↔
      program.tape ≠ [] ∧
      (∀ state, program.isAccepting state = true →
        ∀ symbol, program.transition? state symbol = none) ∧
      program.head < program.tape.length ∧
      program.isKnown program.initialState = true ∧
      (∀ state symbol transition,
        program.transition? state symbol = some transition →
          program.isKnown transition.nextState = true) ∧
      (∀ state ∈ program.table,
        program.table.Reaches program.initialState state) ∧
      ∀ symbol ∈ program.tape, symbol = program.blank ∨
        ∃ state transition,
          program.transition? state symbol = some transition := by
  rw [← acceptingWithRules_eq_nil_iff, ← danglingRules_eq_nil_iff,
    ← unreachableStates_eq_nil_iff, ← unreadSymbols_eq_nil_iff, defect?]
  have hhead : program.head < program.tape.length ↔
      ¬ program.tape.length ≤ program.head := Nat.not_le.symm
  rw [hhead]
  split_ifs <;> simp_all

end Defects

end Program

end XorOrbit
