import XorOrbit.Proofs.Program.Analysis
import XorOrbit.Proofs.Run.Machine

/-!
# What the analysis promises for a run

A program without defects is never in a state that nothing defines, and it
halts where it accepts.  So it makes no difference whether acceptance or the
lack of a rule is taken as the sign to stop.
-/

namespace XorOrbit

/-! ## Known states -/

namespace Program

section Sound

variable {program : Program} (hdefect : program.defect? = none)
include hdefect

theorem transition?_of_isAccepting {state : String}
    (haccepting : program.isAccepting state = true) (symbol : Char) :
    program.transition? state symbol = none := by
  obtain ⟨-, hrules, -⟩ := (defect?_eq_none_iff program).mp hdefect
  exact hrules state haccepting symbol

theorem isKnown_initialState :
    program.isKnown program.initialState = true := by
  obtain ⟨-, -, -, hstart, -⟩ := (defect?_eq_none_iff program).mp hdefect
  exact hstart

theorem isKnown_next {state : String} {symbol : Char}
    {transition : Transition}
    (hrule : program.transition? state symbol = some transition) :
    program.isKnown transition.nextState = true := by
  obtain ⟨-, -, -, -, hnext, -⟩ :=
    (defect?_eq_none_iff program).mp hdefect
  exact hnext state symbol transition hrule

/-- A run leads from known states to known states only. -/
theorem isKnown_of_leads {first last : Configuration}
    (hfirst : program.isKnown first.state = true)
    (hleads : first.Leads program last) :
    program.isKnown last.state = true := by
  induction hleads with
  | refl => exact hfirst
  | tail _ hnext _ =>
      obtain ⟨transition, hrule, rfl⟩ := hnext
      exact isKnown_next hdefect hrule

end Sound

end Program

namespace Machine

/-! ## Stopping at the first halt -/

/-- If acceptance is ignored, calls of `step` report a halt for the first time
after the given number of applied rules. -/
def HaltsAfter (machine : Machine) (count : Nat) : Prop :=
  (∀ earlier < count, (machine.after earlier).step.1 = .continued) ∧
    (machine.after count).step.1 = .halted

instance (machine : Machine) (count : Nat) :
    Decidable (machine.HaltsAfter count) :=
  inferInstanceAs (Decidable (_ ∧ _))

variable {machine : Machine} {count : Nat}

/-- The configuration and the number of applied rules at the first halt. -/
theorem HaltsAfter.after_succ_eq (hhalts : machine.HaltsAfter count) :
    (machine.after (count + 1)).current = (machine.after count).current ∧
      (machine.after (count + 1)).stepCount =
        (machine.after count).stepCount := by
  rw [after_succ, step_eq_of_stuck (stuck_of_halted hhalts.2)]
  exact ⟨rfl, rfl⟩

theorem stepCount_after
    (hcontinued : ∀ earlier < count,
      (machine.after earlier).step.1 = .continued) :
    (machine.after count).stepCount = machine.stepCount + count := by
  induction count with
  | zero => rfl
  | succ count ih =>
      have hlast := hcontinued count (Nat.lt_succ_self count)
      rw [after_succ, stepCount_of_step_eq (Prod.ext hlast rfl),
        ih fun earlier hearlier => hcontinued earlier (by omega)]
      rfl

section Sound

variable (hdefect : machine.program.defect? = none)
include hdefect

theorem transition?_of_isAccepting
    (haccepting : machine.isAccepting = true) :
    machine.transition? = none :=
  Program.transition?_of_isAccepting hdefect haccepting _

/-- A machine that goes on does not accept. -/
theorem isAccepting_of_continued (hstep : machine.step.1 = .continued) :
    machine.isAccepting = false := by
  rw [Bool.eq_false_iff]
  intro haccepting
  have hstuck := transition?_of_isAccepting hdefect haccepting
  rw [(step_of_stuck hstuck).1] at hstep
  contradiction

/-- A run with a larger bound stops at the first halt. -/
theorem HaltsAfter.run_eq (hhalts : machine.HaltsAfter count) {bound : Nat}
    (hbound : count < bound) :
    machine.run bound =
      if (machine.after count).isAccepting then
        (.accepted, machine.after count)
      else (.halted, machine.after (count + 1)) := by
  obtain ⟨more, rfl⟩ := Nat.exists_eq_add_of_lt hbound
  have hcontinued : ∀ steps < count,
      (machine.after steps).isAccepting = false ∧
        (machine.after steps).step.1 = .continued := by
    intro steps hsteps
    have hstep := hhalts.1 steps hsteps
    refine ⟨isAccepting_of_continued ?_ hstep, hstep⟩
    rw [program_after]
    exact hdefect
  rw [Nat.add_assoc, run_add_of_continued hcontinued]
  cases haccepting : (machine.after count).isAccepting with
  | true => exact run_of_accepting haccepting _
  | false =>
      rw [run_succ_of_stuck haccepting (stuck_of_halted hhalts.2),
        ← after_succ]
      rfl

end Sound

end Machine

namespace Program

open Machine

/-- A program without defects is always in a known state and halts where it
accepts; a run with a sufficient bound ends where the first halt occurs, and
accepts exactly if the state there is accepting. -/
theorem run_without_defects (program : Program)
    (hdefect : program.defect? = none) :
    (∀ steps,
      let machine := (Machine.new program).after steps
      (machine.isAccepting = true ∨ machine.state ∈ program.table) ∧
        (machine.isAccepting = true →
          machine.step = (.halted,
            { machine with
              history := machine.history.push machine.current }))) ∧
    ∀ count, (Machine.new program).HaltsAfter count →
      let final := (Machine.new program).after (count + 1)
      ∀ bound, final.stepCount < bound →
        ((Machine.new program).run bound).2.current = final.current ∧
          ((Machine.new program).run bound).2.stepCount = final.stepCount ∧
          ((Machine.new program).run bound).1 =
            if final.isAccepting then .accepted else .halted := by
  constructor
  · intro steps machine
    have hprogram : machine.program = program := program_after _ steps
    constructor
    · have hknown := isKnown_of_leads hdefect
        (isKnown_initialState hdefect)
        (leads_after (Machine.new program) steps)
      rw [Machine.isAccepting, hprogram]
      exact isKnown_iff.mp hknown
    · intro haccepting
      apply step_eq_of_stuck
      apply Machine.transition?_of_isAccepting _ haccepting
      rw [hprogram]
      exact hdefect
  · intro count hhalts final bound hbound
    obtain ⟨hcurrent, hcount⟩ := hhalts.after_succ_eq
    have hfinal : final.stepCount = count := by
      rw [hcount, stepCount_after hhalts.1]
      exact Nat.zero_add count
    have haccepting : final.isAccepting =
        ((Machine.new program).after count).isAccepting := by
      rw [Machine.isAccepting, Machine.isAccepting, state, state, hcurrent,
        program_after, program_after]
    rw [hfinal] at hbound
    rw [hhalts.run_eq hdefect hbound, haccepting]
    split
    · exact ⟨hcurrent.symm, hcount.symm, rfl⟩
    · exact ⟨rfl, rfl, rfl⟩

/-- A program that exchanges two letters on its way to the first blank. -/
def swapLetters : Program where
  name := "swap"
  initialState := "start"
  tape := ['a', 'b']
  head := 0
  blank := '_'
  accepting := Std.ExtTreeSet.ofList ["done"]
  table := (∅ : Table).insert "start" ((((∅ : Row).insert
    'a' ⟨"start", 'b', .right⟩).insert
    'b' ⟨"start", 'a', .right⟩).insert
    '_' ⟨"done", '_', .stay⟩)

theorem run_without_defects_swapLetters :
    swapLetters.defect? = none ∧ (Machine.new swapLetters).HaltsAfter 3 ∧
      ∀ bound, 3 < bound →
        ((Machine.new swapLetters).run bound).1 = .accepted := by
  have hdefect : swapLetters.defect? = none := by decide +kernel
  have hhalts : (Machine.new swapLetters).HaltsAfter 3 := by
    decide +kernel
  have hcount : ((Machine.new swapLetters).after 4).stepCount = 3 := by
    decide +kernel
  have haccepting :
      ((Machine.new swapLetters).after 4).isAccepting = true := by
    decide +kernel
  refine ⟨hdefect, hhalts, ?_⟩
  intro bound hbound
  obtain ⟨-, -, houtcome⟩ := (run_without_defects swapLetters hdefect).2 3
    hhalts bound (hcount ▸ hbound)
  rw [houtcome, haccepting]
  rfl

end Program

end XorOrbit
