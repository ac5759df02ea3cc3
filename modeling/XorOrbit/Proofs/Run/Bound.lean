import XorOrbit.Proofs.Run.History

/-!
# Bounded runs

A run looks for an accepting state, then for the bound and then for a rule, so
the first of these that it meets decides how it ends.  Which one that is can be
read off the configurations ahead of the machine.  A bound that is met only
interrupts a run, and once a run has ended in another way a larger bound
changes nothing.
-/

namespace XorOrbit

/-! ## The configurations ahead -/

namespace Configuration

/-- The configuration after the given number of rules, if as many apply. -/
def ahead? (program : Program) : Configuration → Nat → Option Configuration
  | current, 0 => some current
  | current, count + 1 => do
    let transition ← current.transition? program
    (current.apply transition).ahead? program count

theorem ahead?_add (program : Program) (current : Configuration)
    (count further : Nat) :
    current.ahead? program (count + further) =
      (current.ahead? program count).bind
        (·.ahead? program further) := by
  induction count generalizing current with
  | zero => rw [Nat.zero_add, ahead?, Option.bind_some]
  | succ count ih =>
      rw [Nat.add_right_comm, ahead?, ahead?]
      cases current.transition? program with
      | none => rfl
      | some transition => exact ih (current.apply transition)

theorem ahead?_succ_last (program : Program) (current : Configuration)
    (count : Nat) :
    current.ahead? program (count + 1) =
      (current.ahead? program count).bind fun reached =>
        (reached.transition? program).map reached.apply := by
  rw [ahead?_add]
  congr 1
  funext reached
  cases hrule : reached.transition? program with
  | none => simp [ahead?, hrule]
  | some transition => simp [ahead?, hrule]

end Configuration

/-- What lies ahead of a configuration on the trajectory is the rest of the
trajectory. -/
theorem Program.trajectory?_add (program : Program) (count further : Nat) :
    program.trajectory? (count + further) =
      (program.trajectory? count).bind (·.ahead? program further) := by
  induction further with
  | zero =>
      rw [Nat.add_zero]
      cases program.trajectory? count with
      | none => rfl
      | some current => rfl
  | succ further ih =>
      rw [← Nat.add_assoc, trajectory?, ih]
      cases program.trajectory? count with
      | none => rfl
      | some current =>
          rw [Option.bind_some, Option.bind_some,
            Configuration.ahead?_succ_last]
          cases current.ahead? program further with
          | none => rfl
          | some reached =>
              cases hrule : reached.transition? program with
              | none => simp [hrule]
              | some transition => simp [hrule]

namespace Machine

/-- The configuration that the machine reaches by the given number of rules, if
as many apply. -/
def ahead? (machine : Machine) (count : Nat) : Option Configuration :=
  machine.current.ahead? machine.program count

/-- After the given number of rules the machine is in an accepting state. -/
def AcceptsAfter (machine : Machine) (count : Nat) : Prop :=
  ∃ reached, machine.ahead? count = some reached ∧
    machine.program.isAccepting reached.state = true

/-- After the given number of rules the machine has none left to apply. -/
def StuckAfter (machine : Machine) (count : Nat) : Prop :=
  ∃ reached, machine.ahead? count = some reached ∧
    reached.transition? machine.program = none

/-- None of the next `count` configurations accepts, the current one being the
first of them. -/
def RefusesFor (machine : Machine) (count : Nat) : Prop :=
  ∀ earlier < count, ¬ machine.AcceptsAfter earlier

/-- On a machine that has been used, what lies ahead is the rest of the
trajectory of its program. -/
theorem ahead?_foldl_call (program : Program) (calls : List Call)
    (count : Nat) :
    let machine := calls.foldl call (.new program)
    machine.ahead? count =
      program.trajectory? (machine.stepCount + count) := by
  intro machine
  have hmachine : ((Session.new program).callAll calls).machine = machine :=
    Session.machine_callAll _ calls
  have hrecorded : Recorded program machine
      ((Session.new program).callAll calls).results :=
    hmachine ▸ Session.recorded_callAll (Recorded.new program) calls
  rw [Program.trajectory?_add, hrecorded.current_eq, ahead?,
    hrecorded.program_eq, Option.bind_some]

variable {machine : Machine} {transition : Transition} {bound count : Nat}

theorem acceptsAfter_zero :
    machine.AcceptsAfter 0 ↔ machine.isAccepting = true := by
  simp [AcceptsAfter, ahead?, Configuration.ahead?, isAccepting, state]

theorem stuckAfter_zero :
    machine.StuckAfter 0 ↔
      machine.current.transition? machine.program = none := by
  simp [StuckAfter, ahead?, Configuration.ahead?]

/-- Nothing is ahead of a machine beyond the place where it is stuck. -/
theorem StuckAfter.ahead?_eq_none (hstuck : machine.StuckAfter count)
    {later : Nat} (hlater : count < later) :
    machine.ahead? later = none := by
  obtain ⟨reached, hreached, hnone⟩ := hstuck
  obtain ⟨further, rfl⟩ := Nat.exists_eq_add_of_lt hlater
  rw [ahead?] at hreached ⊢
  rw [Nat.add_assoc, Configuration.ahead?_add, hreached, Option.bind_some,
    Configuration.ahead?, hnone]
  rfl

section Rule

variable (hrule : machine.current.transition? machine.program =
  some transition)
include hrule

/-- A step brings what lies ahead closer by one rule. -/
theorem ahead?_succ (count : Nat) :
    machine.ahead? (count + 1) = machine.step.2.ahead? count := by
  rw [ahead?, ahead?, program_step, (step_of_transition? hrule).2,
    Configuration.ahead?, hrule]
  rfl

theorem acceptsAfter_succ :
    machine.AcceptsAfter (count + 1) ↔
      machine.step.2.AcceptsAfter count := by
  rw [AcceptsAfter, AcceptsAfter, ahead?_succ hrule, program_step]

theorem stuckAfter_succ :
    machine.StuckAfter (count + 1) ↔ machine.step.2.StuckAfter count := by
  rw [StuckAfter, StuckAfter, ahead?_succ hrule, program_step]

theorem RefusesFor.succ (hrefused : machine.isAccepting = false)
    (hlater : machine.step.2.RefusesFor count) :
    machine.RefusesFor (count + 1) := by
  intro earlier hearlier
  cases earlier with
  | zero => simp [acceptsAfter_zero, hrefused]
  | succ earlier =>
      rw [acceptsAfter_succ hrule]
      exact hlater earlier (Nat.lt_of_succ_lt_succ hearlier)

end Rule

theorem refusesFor_one (hrefused : machine.isAccepting = false) :
    machine.RefusesFor 1 := by
  intro earlier hearlier
  obtain rfl : earlier = 0 := Nat.lt_one_iff.mp hearlier
  simp [acceptsAfter_zero, hrefused]

/-! ## Where a run stops -/

/-- A run for the given bound that ends with the given outcome stops after
`count` rules.  To halt it must be allowed one rule more than it finds. -/
def StopsAfter (machine : Machine) (bound : Nat) (outcome : Outcome)
    (count : Nat) : Prop :=
  match outcome with
  | .accepted => count ≤ bound ∧ machine.AcceptsAfter count ∧
      machine.RefusesFor count
  | .halted => count < bound ∧ machine.StuckAfter count ∧
      machine.RefusesFor (count + 1)
  | .exhausted => count = bound ∧ machine.RefusesFor (count + 1)

/-- The machine has applied `count` rules, the last call of `step` having been
in vain if it has halted. -/
structure LeftAfter (machine : Machine) (outcome : Outcome)
    (final : Machine) (count : Nat) : Prop where
  current_eq : machine.ahead? count = some final.current
  stepCount_eq : final.stepCount = machine.stepCount + count
  machine_eq :
    final = machine.after (if outcome = .halted then count + 1 else count)

theorem stopsAfter_zero (haccepting : machine.isAccepting = true)
    (bound : Nat) : machine.StopsAfter bound .accepted 0 :=
  ⟨Nat.zero_le bound, acceptsAfter_zero.mpr haccepting,
    fun _ hearlier => absurd hearlier (Nat.not_lt_zero _)⟩

theorem StopsAfter.succ {outcome : Outcome}
    (hrefused : machine.isAccepting = false)
    (hrule : machine.current.transition? machine.program = some transition)
    (hstops : machine.step.2.StopsAfter bound outcome count) :
    machine.StopsAfter (bound + 1) outcome (count + 1) := by
  cases outcome with
  | accepted =>
      obtain ⟨hcount, haccepts, hrefuses⟩ := hstops
      exact ⟨Nat.succ_le_succ hcount, (acceptsAfter_succ hrule).mpr haccepts,
        hrefuses.succ hrule hrefused⟩
  | halted =>
      obtain ⟨hcount, hstuck, hrefuses⟩ := hstops
      exact ⟨Nat.succ_lt_succ hcount, (stuckAfter_succ hrule).mpr hstuck,
        hrefuses.succ hrule hrefused⟩
  | exhausted =>
      obtain ⟨hcount, hrefuses⟩ := hstops
      exact ⟨congrArg (· + 1) hcount, hrefuses.succ hrule hrefused⟩

theorem LeftAfter.succ {outcome : Outcome} {final : Machine}
    (hrule : machine.current.transition? machine.program = some transition)
    (hleft : machine.step.2.LeftAfter outcome final count) :
    machine.LeftAfter outcome final (count + 1) where
  current_eq := by rw [ahead?_succ hrule, hleft.current_eq]
  stepCount_eq := by
    have hstep : machine.step.2.stepCount = machine.stepCount + 1 := by
      rw [step_eq_of_transition? hrule]
    rw [hleft.stepCount_eq, hstep]
    omega
  machine_eq := by
    rw [hleft.machine_eq, after_step]
    split
    · rfl
    · rfl

theorem leftAfter_zero (machine : Machine) {outcome : Outcome}
    (houtcome : outcome ≠ .halted) :
    machine.LeftAfter outcome machine 0 where
  current_eq := rfl
  stepCount_eq := rfl
  machine_eq := by
    rw [if_neg houtcome]
    rfl

theorem leftAfter_zero_of_stuck
    (hstuck : machine.current.transition? machine.program = none) :
    machine.LeftAfter .halted machine.step.2 0 where
  current_eq := by
    rw [(step_of_stuck hstuck).2]
    rfl
  stepCount_eq := by rw [step_eq_of_stuck hstuck]; rfl
  machine_eq := rfl

/-- Every run stops somewhere. -/
theorem run_stops (machine : Machine) (bound : Nat) :
    ∃ count, machine.StopsAfter bound (machine.run bound).1 count ∧
      machine.LeftAfter (machine.run bound).1 (machine.run bound).2
        count := by
  induction bound generalizing machine with
  | zero =>
      cases haccepting : machine.isAccepting with
      | true =>
          rw [run_of_accepting haccepting]
          exact ⟨0, stopsAfter_zero haccepting _,
            machine.leftAfter_zero (by simp)⟩
      | false =>
          rw [run_zero haccepting]
          exact ⟨0, ⟨rfl, refusesFor_one haccepting⟩,
            machine.leftAfter_zero (by simp)⟩
  | succ bound ih =>
      cases haccepting : machine.isAccepting with
      | true =>
          rw [run_of_accepting haccepting]
          exact ⟨0, stopsAfter_zero haccepting _,
            machine.leftAfter_zero (by simp)⟩
      | false =>
          cases hrule : machine.current.transition? machine.program with
          | none =>
              rw [run_succ_of_stuck haccepting hrule]
              exact ⟨0, ⟨Nat.succ_pos bound, stuckAfter_zero.mpr hrule,
                refusesFor_one haccepting⟩, leftAfter_zero_of_stuck hrule⟩
          | some transition =>
              rw [run_succ haccepting hrule]
              obtain ⟨count, hstops, hleft⟩ := ih machine.step.2
              exact ⟨count + 1, hstops.succ haccepting hrule,
                hleft.succ hrule⟩

/-! ## Which stop a run meets -/

theorem run_accepted_iff :
    (machine.run bound).1 = .accepted ↔
      ∃ count ≤ bound, machine.AcceptsAfter count := by
  obtain ⟨last, hstops, -⟩ := machine.run_stops bound
  constructor
  · intro houtcome
    rw [houtcome] at hstops
    exact ⟨last, hstops.1, hstops.2.1⟩
  · rintro ⟨count, hcount, haccepts⟩
    cases houtcome : (machine.run bound).1 with
    | accepted => rfl
    | halted =>
        rw [houtcome] at hstops
        obtain ⟨-, hstuck, hrefuses⟩ := hstops
        by_cases hearlier : count < last + 1
        · exact absurd haccepts (hrefuses count hearlier)
        · obtain ⟨reached, hreached, -⟩ := haccepts
          rw [hstuck.ahead?_eq_none (by omega)] at hreached
          contradiction
    | exhausted =>
        rw [houtcome] at hstops
        obtain ⟨rfl, hrefuses⟩ := hstops
        exact absurd haccepts (hrefuses count (by omega))

theorem run_halted_iff :
    (machine.run bound).1 = .halted ↔
      ∃ count < bound, machine.StuckAfter count ∧
        machine.RefusesFor (count + 1) := by
  obtain ⟨last, hstops, hleft⟩ := machine.run_stops bound
  constructor
  · intro houtcome
    rw [houtcome] at hstops
    exact ⟨last, hstops⟩
  · rintro ⟨count, hcount, hstuck, hrefuses⟩
    have hlast : last ≤ count := by
      by_contra hlater
      have hcurrent := hleft.current_eq
      rw [hstuck.ahead?_eq_none (by omega)] at hcurrent
      contradiction
    cases houtcome : (machine.run bound).1 with
    | accepted =>
        rw [houtcome] at hstops
        exact absurd hstops.2.1 (hrefuses last (by omega))
    | halted => rfl
    | exhausted =>
        rw [houtcome] at hstops
        have hbound : last = bound := hstops.1
        omega

/-! ## Changing the bound -/

/-- A run that was cut off can be taken up again. -/
theorem run_add_of_exhausted
    (hexhausted : (machine.run bound).1 = .exhausted) (further : Nat) :
    machine.run (bound + further) =
      (machine.run bound).2.run further := by
  induction bound generalizing machine with
  | zero =>
      cases haccepting : machine.isAccepting with
      | true => simp [run_of_accepting haccepting] at hexhausted
      | false => rw [run_zero haccepting, Nat.zero_add]
  | succ bound ih =>
      cases haccepting : machine.isAccepting with
      | true => simp [run_of_accepting haccepting] at hexhausted
      | false =>
          cases hrule : machine.current.transition? machine.program with
          | none =>
              simp [run_succ_of_stuck haccepting hrule] at hexhausted
          | some transition =>
              rw [run_succ haccepting hrule] at hexhausted ⊢
              rw [Nat.add_right_comm, run_succ haccepting hrule]
              exact ih hexhausted

/-- A run that was not cut off stays the same if more rules are allowed. -/
theorem run_eq_of_le (hended : (machine.run bound).1 ≠ .exhausted)
    {larger : Nat} (hlarger : bound ≤ larger) :
    machine.run larger = machine.run bound := by
  induction bound generalizing machine larger with
  | zero =>
      cases haccepting : machine.isAccepting with
      | true => rw [run_of_accepting haccepting, run_of_accepting haccepting]
      | false => simp [run_zero haccepting] at hended
  | succ bound ih =>
      obtain ⟨larger, rfl⟩ := Nat.exists_eq_add_one_of_ne_zero
        (Nat.ne_zero_of_lt hlarger)
      cases haccepting : machine.isAccepting with
      | true => rw [run_of_accepting haccepting, run_of_accepting haccepting]
      | false =>
          cases hrule : machine.current.transition? machine.program with
          | none =>
              rw [run_succ_of_stuck haccepting hrule,
                run_succ_of_stuck haccepting hrule]
          | some transition =>
              rw [run_succ haccepting hrule] at hended ⊢
              rw [run_succ haccepting hrule]
              exact ih hended (Nat.le_of_succ_le_succ hlarger)

/-- A run accepts if an accepting configuration is within the bound, and stops
at the first one; it halts if before that it finds a configuration without a
rule while the bound allows another; and it is cut off by the bound in all other
cases.  A run that was cut off can be taken up again for the rest of a larger
bound, and any other run is the same for all larger bounds.  This holds of every
machine; on one that has been used, the configurations ahead are the rest of
the trajectory. -/
theorem run_meets_first_stop (machine : Machine) (bound : Nat) :
    let outcome := (machine.run bound).1
    let final := (machine.run bound).2
    (outcome = .accepted ↔
        ∃ count ≤ bound, machine.AcceptsAfter count) ∧
      (outcome = .halted ↔
        ∃ count < bound, machine.StuckAfter count ∧
          machine.RefusesFor (count + 1)) ∧
      (outcome = .exhausted ↔
        (machine.ahead? bound).isSome ∧ machine.RefusesFor (bound + 1)) ∧
      (∃ count, machine.StopsAfter bound outcome count ∧
        machine.LeftAfter outcome final count) ∧
      (outcome = .exhausted →
        ∀ further, final.run further = machine.run (bound + further)) ∧
      (outcome ≠ .exhausted →
        ∀ larger, bound ≤ larger →
          machine.run larger = machine.run bound) ∧
      ∀ (program : Program) (calls : List Call),
        machine = calls.foldl call (.new program) →
          ∀ count, machine.ahead? count =
            program.trajectory? (machine.stepCount + count) := by
  intro outcome final
  obtain ⟨count, hstops, hleft⟩ := machine.run_stops bound
  refine ⟨run_accepted_iff, run_halted_iff, ⟨?_, ?_⟩,
    ⟨count, hstops, hleft⟩, ?_, ?_, ?_⟩
  · intro houtcome
    rw [show (machine.run bound).1 = .exhausted from houtcome] at hstops
    obtain ⟨rfl, hrefuses⟩ := hstops
    exact ⟨by simp [hleft.current_eq], hrefuses⟩
  · rintro ⟨hsome, hrefuses⟩
    cases houtcome : outcome with
    | accepted =>
        obtain ⟨earlier, hearlier, haccepts⟩ := run_accepted_iff.mp houtcome
        exact absurd haccepts (hrefuses earlier (by omega))
    | halted =>
        obtain ⟨earlier, hearlier, hstuck, -⟩ := run_halted_iff.mp houtcome
        simp [hstuck.ahead?_eq_none hearlier] at hsome
    | exhausted => rfl
  · intro houtcome further
    exact (run_add_of_exhausted houtcome further).symm
  · intro houtcome larger hlarger
    exact run_eq_of_le houtcome hlarger
  · rintro program calls rfl count
    exact ahead?_foldl_call program calls count

/-- After the only rule a bound of one has been met, and only a larger one lets
the machine find out that there is no other rule. -/
example :
    let program : Program :=
      { name := "once", initialState := "start", tape := ['a'], head := 0
        blank := '_', accepting := ∅
        table := (∅ : Table).insert "start"
          ((∅ : Row).insert 'a' ⟨"done", 'b', .right⟩) }
    let machine := new program
    (machine.run 1).1 = .exhausted ∧ (machine.run 1).2.history.size = 1 ∧
      (machine.run 2).1 = .halted ∧ (machine.run 2).2.history.size = 2 := by
  decide +kernel

end Machine

end XorOrbit
