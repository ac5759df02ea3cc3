import XorOrbit.CommandLine.Run
import XorOrbit.Proofs.Run.History

/-!
# Showing a run

A run that is shown compares the number of rules that the machine has applied
with a limit, while a plain run counts down its own bound.  On a machine that
has applied no more rules than the limit allows they stop at the same place,
and the lines shown on the way are those of the trajectory.
-/

namespace XorOrbit.CommandLine

/-- The line for the configuration after the given number of rules. -/
def countedLine (count : Nat) (configuration : Configuration) : String :=
  "Step: " ++ toString count ++ ", State: " ++ configuration.state ++
    ", Tape: " ++ String.ofList configuration.tape.cells ++
    ", Head: " ++ toString configuration.tape.head ++ "\n"

/-- What the program prints for a machine is the line for its configuration. -/
theorem configurationLine_eq (machine : Machine) :
    configurationLine machine =
      countedLine machine.stepCount machine.current := rfl

/-- The text consists of one line for each configuration of the trajectory, from
the initial one to the one after `count` rules. -/
def Shows (program : Program) (count : Nat) (shown : String) : Prop :=
  ∃ lines : List String, shown = String.join lines ∧
    lines.length = count + 1 ∧
    ∀ index (hindex : index < lines.length), ∃ current,
      program.trajectory? index = some current ∧
        lines[index] = countedLine index current

theorem shows_initial (program : Program) :
    Shows program 0 (configurationLine (.new program)) := by
  refine ⟨[configurationLine (.new program)], by simp, rfl, ?_⟩
  intro index hindex
  obtain rfl : index = 0 := by simpa using hindex
  exact ⟨.initial program, rfl, rfl⟩

/-- A line for the next configuration of the trajectory goes on with what has
been shown. -/
theorem Shows.append_line {program : Program} {count : Nat} {shown : String}
    {current : Configuration} (hshows : Shows program count shown)
    (hcurrent : program.trajectory? (count + 1) = some current) :
    Shows program (count + 1) (shown ++ countedLine (count + 1) current) := by
  obtain ⟨lines, rfl, hlength, hlines⟩ := hshows
  refine ⟨lines ++ [countedLine (count + 1) current], by simp,
    by simp [hlength], ?_⟩
  intro index hindex
  rw [List.getElem_append]
  split
  · next hearlier => exact hlines index hearlier
  · next hlast =>
      have hlength' : index < lines.length + 1 := by simpa using hindex
      obtain rfl : index = count + 1 := by omega
      exact ⟨current, hcurrent, by simp⟩

/-! ## One round of a shown run -/

section Round

variable {machine : Machine} {maxSteps : Nat} {shown : String}

theorem runShown_of_accepting (haccepting : machine.isAccepting = true) :
    runShown machine maxSteps shown = (.accepted, machine, shown) := by
  rw [runShown, if_pos haccepting]

variable (hrefused : machine.isAccepting = false)
include hrefused

theorem runShown_of_exhausted (hspent : machine.stepCount = maxSteps) :
    runShown machine maxSteps shown = (.exhausted, machine, shown) := by
  rw [runShown, hrefused, if_neg Bool.false_ne_true,
    if_neg (Nat.not_lt.mpr (Nat.le_of_eq hspent.symm))]

variable (hallowed : machine.stepCount < maxSteps)
include hallowed

theorem runShown_of_stuck
    (hstuck : machine.current.transition? machine.program = none) :
    runShown machine maxSteps shown =
      (.halted, machine.step.2, shown) := by
  rw [runShown, hrefused, if_neg Bool.false_ne_true, if_pos hallowed]
  split
  · next hstep => rw [hstep]
  · next hstep => simp [Machine.step_eq_of_stuck hstuck] at hstep

theorem runShown_of_transition? {transition : Transition}
    (hrule : machine.current.transition? machine.program =
      some transition) :
    runShown machine maxSteps shown =
      runShown machine.step.2 maxSteps
        (shown ++ configurationLine machine.step.2) := by
  rw [runShown, hrefused, if_neg Bool.false_ne_true, if_pos hallowed]
  split
  · next hstep => simp [Machine.step_eq_of_transition? hrule] at hstep
  · next hstep => rw [hstep]

end Round

/-! ## The whole run -/

/-- A shown run ends as the plain one does that may apply the rest of the
allowed rules, and shows the trajectory up to there. -/
theorem runShown_eq_run {program : Program} {machine : Machine}
    {results : List Step} {maxSteps : Nat} {shown : String}
    (hrecorded : machine.Recorded program results)
    (hshows : Shows program machine.stepCount shown)
    (hallowed : machine.stepCount ≤ maxSteps) :
    let plain := machine.run (maxSteps - machine.stepCount)
    ∃ shown', runShown machine maxSteps shown =
        (plain.1, plain.2, shown') ∧
      Shows program plain.2.stepCount shown' := by
  induction hbound : maxSteps - machine.stepCount
    generalizing machine results shown with
  | zero =>
      have hspent : machine.stepCount = maxSteps := by omega
      cases haccepting : machine.isAccepting with
      | true =>
          rw [Machine.run_of_accepting haccepting]
          exact ⟨shown, runShown_of_accepting haccepting, hshows⟩
      | false =>
          rw [Machine.run_zero haccepting]
          exact ⟨shown, runShown_of_exhausted haccepting hspent, hshows⟩
  | succ bound ih =>
      have hless : machine.stepCount < maxSteps := by omega
      cases haccepting : machine.isAccepting with
      | true =>
          rw [Machine.run_of_accepting haccepting]
          exact ⟨shown, runShown_of_accepting haccepting, hshows⟩
      | false =>
          cases hrule : machine.current.transition? machine.program with
          | none =>
              rw [Machine.run_succ_of_stuck haccepting hrule,
                runShown_of_stuck haccepting hless hrule]
              refine ⟨shown, rfl, ?_⟩
              rw [Machine.step_eq_of_stuck hrule]
              exact hshows
          | some transition =>
              rw [Machine.run_succ haccepting hrule,
                runShown_of_transition? haccepting hless hrule]
              have hcount : machine.step.2.stepCount =
                  machine.stepCount + 1 := by
                rw [Machine.step_eq_of_transition? hrule]
              have hstep := hrecorded.step
              refine ih hstep ?_ (by omega) (by omega)
              rw [configurationLine_eq, hcount]
              exact hshows.append_line (hcount ▸ hstep.current_eq)

/-- On a fresh machine a shown run ends as the plain one does, and shows one
more configuration than it has applied rules. -/
theorem runShown_new (program : Program) (maxSteps : Nat) :
    let plain := (Machine.new program).run maxSteps
    ∃ shown, runShown (.new program) maxSteps
          (configurationLine (.new program)) =
        (plain.1, plain.2, shown) ∧
      Shows program plain.2.stepCount shown :=
  runShown_eq_run (Machine.Recorded.new program) (shows_initial program)
    (Nat.zero_le maxSteps)

end XorOrbit.CommandLine
