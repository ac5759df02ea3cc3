import XorOrbit.Proofs.Program.Analysis
import XorOrbit.Proofs.Run.Phrase

/-!
# Rules that are connected to a start state

A list of rules is connected if every state that has a rule can be reached from
the start state and every state that a rule leads to is known.  Like
`Program.Follows`, this is taken apart along the phrases.
-/

namespace XorOrbit

namespace Program

/-- The state has a rule and can be reached from the start state. -/
structure Joins (program : Program) (start state : String) : Prop where
  reaches : program.table.Reaches start state
  isKnown : program.isKnown state = true

/-- The rules belong to states that are joined to the start state, and so are
the states that they lead to. -/
def Connects (program : Program) (start : String) (rules : List Rule) :
    Prop :=
  ∀ rule ∈ rules, program.Joins start rule.state ∧
    program.Joins start rule.next

section Joins

variable {program : Program} {start state : String} {symbol : Char}
  {transition : Transition}

/-- A state with a rule is known. -/
theorem isKnown_of_transition?
    (hrule : program.transition? state symbol = some transition) :
    program.isKnown state = true := by
  rw [Program.isKnown, Bool.or_eq_true]
  exact Or.inl (Table.mem_of_transition? hrule)

theorem joins_start
    (hrule : program.transition? start symbol = some transition) :
    program.Joins start start :=
  ⟨Relation.ReflTransGen.refl, isKnown_of_transition? hrule⟩

/-- A known state that a rule leads to is joined to the rule's state. -/
theorem Joins.next (hstate : program.Joins start state)
    (hrule : program.transition? state symbol = some transition)
    (hknown : program.isKnown transition.nextState = true) :
    program.Joins start transition.nextState :=
  ⟨hstate.reaches.tail ⟨symbol, transition, hrule, rfl⟩, hknown⟩

/-- A state that a rule leads to and that has a rule itself. -/
theorem Joins.rule {symbol' : Char} {transition' : Transition}
    (hstate : program.Joins start state)
    (hrule : program.transition? state symbol = some transition)
    (hrule' : program.transition? transition.nextState symbol' =
      some transition') :
    program.Joins start transition.nextState :=
  hstate.next hrule (isKnown_of_transition? hrule')

/-- States each of which is joined if the one before it is. -/
theorem Joins.chain {states : Nat → String} {count : Nat}
    (hstart : program.Joins start (states 0))
    (hnext : ∀ index < count, program.Joins start (states index) →
      program.Joins start (states (index + 1)))
    {index : Nat} (hindex : index ≤ count) :
    program.Joins start (states index) := by
  induction index with
  | zero => exact hstart
  | succ index ih => exact hnext index hindex (ih (by omega))

/-- States that lead from one to the next, the last of which is known. -/
theorem Joins.steps {states : Nat → String} {count : Nat}
    (hstart : program.Joins start (states 0))
    (hleads : ∀ step < count,
      program.table.Leads (states step) (states (step + 1)))
    (hknown : program.isKnown (states count) = true) {step : Nat}
    (hstep : step ≤ count) :
    program.Joins start (states step) := by
  refine hstart.chain ?_ hstep
  intro step hstep hjoins
  obtain ⟨symbol, transition, hrule, hnext⟩ := hleads step hstep
  rw [← hnext]
  refine hjoins.next hrule ?_
  rw [hnext]
  by_cases hlast : step + 1 = count
  · rw [hlast]
    exact hknown
  · obtain ⟨_, _, hrule', -⟩ := hleads (step + 1) (by omega)
    exact isKnown_of_transition? hrule'

end Joins

section Phrases

variable {program : Program} {start state next : String}
  {symbols : List Char} {direction turn : Direction}

@[simp] theorem connects_nil : program.Connects start [] := by
  simp [Connects]

@[simp] theorem connects_append {first second : List Rule} :
    program.Connects start (first ++ second) ↔
      program.Connects start first ∧ program.Connects start second :=
  List.forall_mem_append

@[simp] theorem connects_cons {rule : Rule} {rules : List Rule} :
    program.Connects start (rule :: rules) ↔
      (program.Joins start rule.state ∧ program.Joins start rule.next) ∧
        program.Connects start rules :=
  List.forall_mem_cons

theorem connects_flatMap {α : Type} {items : List α}
    {rules : α → List Rule} :
    program.Connects start (items.flatMap rules) ↔
      ∀ item ∈ items, program.Connects start (rules item) :=
  List.forall_mem_flatMap

@[simp] theorem connects_map {α : Type} {items : List α}
    {rule : α → Rule} :
    program.Connects start (items.map rule) ↔
      ∀ item ∈ items, program.Joins start (rule item).state ∧
        program.Joins start (rule item).next :=
  List.forall_mem_map

@[simp] theorem connects_cross :
    program.Connects start (Phrase.cross state symbols direction next) ↔
      ∀ symbol ∈ symbols,
        program.Joins start state ∧ program.Joins start next := by
  simp [Connects, Phrase.cross]

@[simp] theorem connects_pass :
    program.Connects start (Phrase.pass state symbols direction) ↔
      ∀ symbol ∈ symbols, program.Joins start state := by
  simp [Phrase.pass]

@[simp] theorem connects_mark {next : Bool → String} :
    program.Connects start (Phrase.mark state direction next) ↔
      ∀ bit, program.Joins start state ∧
        program.Joins start (next bit) := by
  simp [Connects, Phrase.mark]

@[simp] theorem connects_restore {value : Restore} :
    program.Connects start (Phrase.restore state value direction next) ↔
      program.Joins start state ∧ program.Joins start next := by
  simp [Connects, Phrase.restore]

@[simp] theorem connects_findMark {value : Restore} :
    program.Connects start
        (Phrase.findMark state symbols direction value turn next) ↔
      (∀ symbol ∈ symbols, program.Joins start state) ∧
        program.Joins start state ∧ program.Joins start next := by
  simp [Phrase.findMark]

@[simp] theorem connects_travel {target : Char} :
    program.Connects start
        (Phrase.travel state symbols direction target turn next) ↔
      (∀ symbol ∈ symbols, program.Joins start state) ∧
        program.Joins start state ∧ program.Joins start next := by
  simp [Phrase.travel]

end Phrases

end Program

end XorOrbit
