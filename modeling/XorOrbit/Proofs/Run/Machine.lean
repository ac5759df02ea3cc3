import Mathlib.Logic.Function.Iterate
import XorOrbit.Proofs.Run.Trace
import XorOrbit.Proofs.Tape.Cells

/-!
# Machines that follow a trace

A machine applies the only rule that there is, so it cannot leave a trace: all
its configurations are on the trace or come after it.  A bounded run of a
machine whose trace ends in an accepting state accepts as soon as the bound is
the length of the trace.
-/

namespace XorOrbit

/-- The second configuration comes after the first, or is the same. -/
def Configuration.Leads (program : Program) :
    Configuration → Configuration → Prop :=
  Relation.ReflTransGen (Configuration.Next program)

namespace Trace

variable {program : Program} {via : String → List Char → Prop}
  {first last current : Configuration}

/-- A configuration that comes after the start of a trace is on the trace or
comes after its end. -/
theorem via_or_leads (htrace : Trace program via first last)
    (hleads : first.Leads program current) :
    via current.state current.tape.cells ∨ last.Leads program current := by
  induction htrace using Relation.ReflTransGen.head_induction_on with
  | refl => exact Or.inr hleads
  | head hstep _ ih =>
      rcases hleads.cases_head with rfl | ⟨following, hnext, hrest⟩
      · exact Or.inl hstep.1
      · obtain rfl := hstep.2.unique hnext
        exact ih hrest

/-- Nothing comes after a configuration without a rule. -/
theorem via_or_eq (htrace : Trace program via first last)
    (hstuck : last.transition? program = none)
    (hleads : first.Leads program current) :
    via current.state current.tape.cells ∨ current = last := by
  apply (htrace.via_or_leads hleads).imp_right
  intro hlast
  rcases hlast.cases_head with heq | ⟨following, hnext, -⟩
  · exact heq.symm
  · obtain ⟨transition, htransition, -⟩ := hnext
    rw [hstuck] at htransition
    simp at htransition

end Trace

namespace Machine

variable {machine : Machine} {transition : Transition}

/-- The machine after the given number of steps. -/
def after (machine : Machine) (steps : Nat) : Machine :=
  (fun machine => machine.step.2)^[steps] machine

/-- A step by a rule records the configuration that it leaves, and the rule. -/
theorem step_eq_of_transition?
    (hrule : machine.current.transition? machine.program =
      some transition) :
    machine.step = (.continued,
      { machine with
        current := machine.current.apply transition
        history := machine.history.push machine.current
        last := some ⟨machine.current.state, machine.current.tape.read,
          transition⟩
        stepCount := machine.stepCount + 1 }) := by
  rw [step]
  simp only [hrule]

/-- A step without a rule only records the configuration. -/
theorem step_eq_of_stuck
    (hstuck : machine.current.transition? machine.program = none) :
    machine.step = (.halted,
      { machine with history := machine.history.push machine.current }) := by
  rw [step]
  simp only [hstuck]

theorem step_of_transition?
    (hrule : machine.current.transition? machine.program =
      some transition) :
    machine.step.1 = .continued ∧
      machine.step.2.current = machine.current.apply transition := by
  rw [step_eq_of_transition? hrule]
  exact ⟨rfl, rfl⟩

theorem step_of_stuck
    (hstuck : machine.current.transition? machine.program = none) :
    machine.step.1 = .halted ∧ machine.step.2.current = machine.current := by
  rw [step_eq_of_stuck hstuck]
  exact ⟨rfl, rfl⟩

theorem exists_transition_of_continued
    (hstep : machine.step.1 = .continued) :
    ∃ transition, machine.current.transition? machine.program =
      some transition := by
  cases hrule : machine.current.transition? machine.program with
  | none => simp [(step_of_stuck hrule).1] at hstep
  | some transition => exact ⟨transition, rfl⟩

theorem stuck_of_halted (hstep : machine.step.1 = .halted) :
    machine.current.transition? machine.program = none := by
  cases hrule : machine.current.transition? machine.program with
  | none => rfl
  | some transition => simp [(step_of_transition? hrule).1] at hstep

@[simp] theorem program_step (machine : Machine) :
    machine.step.2.program = machine.program := by
  cases hrule : machine.current.transition? machine.program with
  | none => rw [step_eq_of_stuck hrule]
  | some transition => rw [step_eq_of_transition? hrule]

theorem after_succ (machine : Machine) (steps : Nat) :
    machine.after (steps + 1) = (machine.after steps).step.2 :=
  Function.iterate_succ_apply' ..

theorem after_step (machine : Machine) (steps : Nat) :
    machine.step.2.after steps = machine.after (steps + 1) := rfl

@[simp] theorem program_after (machine : Machine) (steps : Nat) :
    (machine.after steps).program = machine.program := by
  induction steps with
  | zero => rfl
  | succ steps ih => rw [after_succ, program_step, ih]

/-- The configurations of a machine come after its first one. -/
theorem leads_after (machine : Machine) (steps : Nat) :
    machine.current.Leads machine.program
      (machine.after steps).current := by
  induction steps with
  | zero => exact Relation.ReflTransGen.refl
  | succ steps ih =>
      rw [after_succ]
      cases hrule : (machine.after steps).current.transition?
          (machine.after steps).program with
      | none =>
          rw [(step_of_stuck hrule).2]
          exact ih
      | some transition =>
          rw [(step_of_transition? hrule).2]
          rw [program_after] at hrule
          exact ih.tail ⟨transition, hrule, rfl⟩

theorem run_of_accepting (haccepting : machine.isAccepting = true)
    (bound : Nat) : machine.run bound = (.accepted, machine) := by
  rw [run.eq_def, if_pos haccepting]

theorem run_zero (hrefused : machine.isAccepting = false) :
    machine.run 0 = (.exhausted, machine) := by
  rw [run.eq_def, hrefused]
  rfl

theorem run_succ (hrefused : machine.isAccepting = false)
    (hrule : machine.current.transition? machine.program =
      some transition) (bound : Nat) :
    machine.run (bound + 1) = machine.step.2.run bound := by
  have hcontinued := (step_of_transition? hrule).1
  rw [run.eq_def, hrefused, if_neg Bool.false_ne_true]
  cases hstep : machine.step with
  | mk result following =>
      rw [hstep] at hcontinued
      obtain rfl : result = .continued := hcontinued
      rfl

theorem run_succ_of_stuck (hrefused : machine.isAccepting = false)
    (hstuck : machine.current.transition? machine.program = none)
    (bound : Nat) :
    machine.run (bound + 1) = (.halted, machine.step.2) := by
  rw [run.eq_def, hrefused, if_neg Bool.false_ne_true]
  simp only [step_eq_of_stuck hstuck]

/-- A run goes through all configurations that neither accept nor lack a
rule. -/
theorem run_add_of_continued {count : Nat}
    (hcontinued : ∀ steps < count,
      (machine.after steps).isAccepting = false ∧
        (machine.after steps).step.1 = .continued) (bound : Nat) :
    machine.run (count + bound) = (machine.after count).run bound := by
  induction count generalizing machine with
  | zero =>
      rw [Nat.zero_add]
      rfl
  | succ count ih =>
      obtain ⟨hrefused, hstep⟩ := hcontinued 0 (Nat.succ_pos count)
      change machine.isAccepting = false at hrefused
      change machine.step.1 = .continued at hstep
      obtain ⟨transition, hrule⟩ := exists_transition_of_continued hstep
      rw [Nat.add_right_comm, run_succ hrefused hrule,
        ih fun steps hsteps => hcontinued (steps + 1) (by omega), after_step]

/-- The number of calls of `step` in a bounded run. -/
def stepsIn (machine : Machine) (bound : Nat) : Nat :=
  if machine.isAccepting then 0
  else match bound with
    | 0 => 0
    | bound + 1 =>
      match machine.step with
      | (.halted, _) => 1
      | (.continued, following) => following.stepsIn bound + 1

/-- A bounded run leaves the machine as its calls of `step` do. -/
theorem run_eq_after (machine : Machine) (bound : Nat) :
    (machine.run bound).2 = machine.after (machine.stepsIn bound) := by
  induction bound generalizing machine with
  | zero =>
      rw [run.eq_def, stepsIn.eq_def]
      split
      · rfl
      · rfl
  | succ bound ih =>
      rw [run.eq_def, stepsIn.eq_def]
      split
      · rfl
      · rcases hstep : machine.step with ⟨result, following⟩
        have hfollowing : machine.step.2 = following := by rw [hstep]
        cases result with
        | halted => exact hfollowing.symm
        | continued =>
            change (following.run bound).2 = _
            rw [ih, ← hfollowing]
            rfl

/-- A run accepts if the bound is at least the length of the trace to the
accepting state, and is exhausted otherwise. -/
theorem run_of_trace {program : Program} {via : String → List Char → Prop}
    {first last : Configuration} (htrace : Trace program via first last)
    (haccepts : program.isAccepting last.state = true)
    (hother : ∀ current following : Configuration,
      current.Next program following →
        program.isAccepting current.state = false) :
    ∃ count, ∀ machine : Machine, machine.program = program →
      machine.current = first →
      (∀ bound < count, (machine.run bound).1 = .exhausted) ∧
        ∀ bound, count ≤ bound → (machine.run bound).1 = .accepted ∧
          (machine.run bound).2.current = last := by
  induction htrace using Relation.ReflTransGen.head_induction_on with
  | refl =>
      refine ⟨0, ?_⟩
      intro machine hprogram hcurrent
      refine ⟨by simp, ?_⟩
      intro bound _
      have haccepting : machine.isAccepting = true := by
        rw [isAccepting, state, hprogram, hcurrent, haccepts]
      rw [run_of_accepting haccepting]
      exact ⟨rfl, hcurrent⟩
  | head hstep _ ih =>
      obtain ⟨count, hcount⟩ := ih
      refine ⟨count + 1, ?_⟩
      intro machine hprogram hcurrent
      obtain ⟨transition, hrule, rfl⟩ := hstep.2
      have hrefused : machine.isAccepting = false := by
        rw [isAccepting, state, hprogram, hcurrent, hother _ _ hstep.2]
      rw [← hprogram, ← hcurrent] at hrule
      obtain ⟨hexhausted, haccepted⟩ := hcount machine.step.2
        (by rw [program_step, hprogram])
        (by rw [(step_of_transition? hrule).2, hcurrent])
      constructor
      · intro bound hbound
        cases bound with
        | zero => rw [run_zero hrefused]
        | succ bound =>
            rw [run_succ hrefused hrule]
            exact hexhausted bound (by omega)
      · intro bound hbound
        cases bound with
        | zero => omega
        | succ bound =>
            rw [run_succ hrefused hrule]
            exact haccepted bound (by omega)

/-! ## The blank of a machine's tape -/

theorem blank_apply (current : Configuration) (transition : Transition) :
    (current.apply transition).tape.blank = current.tape.blank := by
  rw [Configuration.apply, Tape.blank_shift, Tape.blank_write]

theorem blank_step (machine : Machine) :
    machine.step.2.tape.blank = machine.tape.blank := by
  cases hrule : machine.transition? with
  | none => rw [tape, (step_of_stuck hrule).2, tape]
  | some transition =>
      rw [tape, (step_of_transition? hrule).2, blank_apply, tape]

theorem blank_after (machine : Machine) (steps : Nat) :
    (machine.after steps).tape.blank = machine.tape.blank := by
  induction steps with
  | zero => rfl
  | succ steps ih => rw [after_succ, blank_step, ih]

theorem blank_run (machine : Machine) (bound : Nat) :
    (machine.run bound).2.tape.blank = machine.tape.blank := by
  rw [run_eq_after, blank_after]

end Machine

end XorOrbit
