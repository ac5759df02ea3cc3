import XorOrbit.Proofs.Run.Machine
import XorOrbit.Proofs.Tape.Padding

/-!
# Machines that cannot be told apart

A program that starts with more blanks on its tape runs in step with the
original one.  The two machines extend their tapes at different times and count
their cells differently, but nothing that a program could react to differs.
-/

namespace XorOrbit

/-- The program with more blanks on both sides of its tape, starting on the
same cell. -/
def Program.pad (program : Program) (left right : Nat) : Program :=
  { program with
    tape := List.replicate left program.blank ++ program.tape ++
      List.replicate right program.blank
    head := program.head + left }

namespace Machine

/-- The machines have the same rules, are in the same state on alike tapes, and
have counted and recorded alike. -/
structure Alike (first second : Machine) : Prop where
  table_eq : first.program.table = second.program.table
  accepting_eq : first.program.accepting = second.program.accepting
  state_eq : first.state = second.state
  tape : Tape.Alike first.tape second.tape
  stepCount_eq : first.stepCount = second.stepCount
  last_eq : first.last = second.last
  size_history_eq : first.history.size = second.history.size

namespace Alike

variable {first second third : Machine}

theorem symm (halike : Alike first second) : Alike second first where
  table_eq := halike.table_eq.symm
  accepting_eq := halike.accepting_eq.symm
  state_eq := halike.state_eq.symm
  tape := halike.tape.symm
  stepCount_eq := halike.stepCount_eq.symm
  last_eq := halike.last_eq.symm
  size_history_eq := halike.size_history_eq.symm

theorem trans (hfirst : Alike first second) (hsecond : Alike second third) :
    Alike first third where
  table_eq := hfirst.table_eq.trans hsecond.table_eq
  accepting_eq := hfirst.accepting_eq.trans hsecond.accepting_eq
  state_eq := hfirst.state_eq.trans hsecond.state_eq
  tape := hfirst.tape.trans hsecond.tape
  stepCount_eq := hfirst.stepCount_eq.trans hsecond.stepCount_eq
  last_eq := hfirst.last_eq.trans hsecond.last_eq
  size_history_eq := hfirst.size_history_eq.trans hsecond.size_history_eq

theorem pad (program : Program) (left right : Nat) :
    Alike (new program) (new (program.pad left right)) where
  table_eq := rfl
  accepting_eq := rfl
  state_eq := rfl
  tape := Tape.Alike.pad program.tape program.head program.blank left right
  stepCount_eq := rfl
  last_eq := rfl
  size_history_eq := rfl

variable (halike : Alike first second)
include halike

theorem isAccepting_eq : first.isAccepting = second.isAccepting := by
  rw [isAccepting, isAccepting, Program.isAccepting, Program.isAccepting,
    halike.accepting_eq, halike.state_eq]

theorem symbol_eq : first.symbol = second.symbol := halike.tape.read_eq

theorem transition?_eq : first.transition? = second.transition? := by
  have hstate : first.current.state = second.current.state :=
    halike.state_eq
  have hread : first.current.tape.read = second.current.tape.read :=
    halike.symbol_eq
  rw [transition?, transition?, Configuration.transition?,
    Configuration.transition?, Program.transition?, Program.transition?,
    halike.table_eq, hstate, hread]

/-- Both machines apply the same rule, or none. -/
theorem step :
    first.step.1 = second.step.1 ∧ Alike first.step.2 second.step.2 := by
  have hrule' := halike.transition?_eq
  have hstate : first.current.state = second.current.state :=
    halike.state_eq
  have hread : first.current.tape.read = second.current.tape.read :=
    halike.symbol_eq
  cases hrule : first.transition? with
  | none =>
      rw [hrule] at hrule'
      rw [step_eq_of_stuck hrule, step_eq_of_stuck hrule'.symm]
      constructor
      · rfl
      · exact
          { halike with
            size_history_eq := by simp [halike.size_history_eq] }
  | some transition =>
      rw [hrule] at hrule'
      rw [step_eq_of_transition? hrule, step_eq_of_transition? hrule'.symm]
      constructor
      · rfl
      · exact
          { table_eq := halike.table_eq
            accepting_eq := halike.accepting_eq
            state_eq := rfl
            tape := (halike.tape.write transition.write).shift
              transition.direction
            stepCount_eq := congrArg (· + 1) halike.stepCount_eq
            last_eq := by rw [hstate, hread]
            size_history_eq := by simp [halike.size_history_eq] }

theorem after (steps : Nat) :
    Alike (first.after steps) (second.after steps) := by
  induction steps with
  | zero => exact halike
  | succ steps ih =>
      rw [after_succ, after_succ]
      exact ih.step.2

/-- Either both machines accept before the first step or none does. -/
theorem run_accepted (haccepting : first.isAccepting = true) (bound : Nat) :
    (first.run bound).1 = (second.run bound).1 ∧
      Alike (first.run bound).2 (second.run bound).2 := by
  have haccepting' := halike.isAccepting_eq.symm.trans haccepting
  rw [run_of_accepting haccepting, run_of_accepting haccepting']
  exact ⟨rfl, halike⟩

/-- Both machines stop for the same reason. -/
theorem run (bound : Nat) :
    (first.run bound).1 = (second.run bound).1 ∧
      Alike (first.run bound).2 (second.run bound).2 := by
  induction bound generalizing first second with
  | zero =>
      cases haccepting : first.isAccepting with
      | true => exact halike.run_accepted haccepting 0
      | false =>
          have haccepting' := halike.isAccepting_eq.symm.trans haccepting
          rw [run_zero haccepting, run_zero haccepting']
          exact ⟨rfl, halike⟩
  | succ bound ih =>
      cases haccepting : first.isAccepting with
      | true => exact halike.run_accepted haccepting (bound + 1)
      | false =>
          have haccepting' := halike.isAccepting_eq.symm.trans haccepting
          cases hrule : first.transition? with
          | none =>
              have hrule' := halike.transition?_eq.symm.trans hrule
              rw [run_succ_of_stuck haccepting hrule,
                run_succ_of_stuck haccepting' hrule']
              exact ⟨rfl, halike.step.2⟩
          | some transition =>
              have hrule' := halike.transition?_eq.symm.trans hrule
              rw [run_succ haccepting hrule, run_succ haccepting' hrule']
              exact ih halike.step.2

end Alike

end Machine

end XorOrbit
