import XorOrbit.Proofs.Run.Machine

/-!
# What a machine records

From its initial configuration a program goes through its trajectory.  However
the calls on a machine are mixed, the machine is on that trajectory, and its
history is the trajectory up to there.  A call of `step` without a rule records
the last configuration once more without counting it; so the history is longer
than the number of applied rules by the number of halts.
-/

namespace XorOrbit

/-! ## The trajectory of a program -/

namespace Program

/-- The configuration after the given number of rules from the initial one, if
as many apply. -/
def trajectory? (program : Program) : Nat → Option Configuration
  | 0 => some (.initial program)
  | count + 1 => do
    let current ← program.trajectory? count
    let transition ← current.transition? program
    return current.apply transition

/-- The record of the rule that leads to the configuration after the given
number of rules: there is none for the initial configuration, and any other is
reached from the one before by the program's rule for its state and symbol. -/
def LastTaken (program : Program) (last : Option TakenTransition) :
    Nat → Prop
  | 0 => last = none
  | count + 1 => ∃ previous transition,
      program.trajectory? count = some previous ∧
        program.transition? previous.state previous.tape.read =
          some transition ∧
        last = some ⟨previous.state, previous.tape.read, transition⟩

variable {program : Program} {count : Nat} {current : Configuration}
  {transition : Transition}

theorem trajectory?_succ
    (hcurrent : program.trajectory? count = some current)
    (hrule : current.transition? program = some transition) :
    program.trajectory? (count + 1) = some (current.apply transition) := by
  simp [trajectory?, hcurrent, hrule]

/-- The tape keeps the blank of the program. -/
theorem blank_of_trajectory?
    (hcurrent : program.trajectory? count = some current) :
    current.tape.blank = program.blank := by
  induction count generalizing current with
  | zero =>
      obtain rfl := Option.some.inj hcurrent
      rfl
  | succ count ih =>
      simp only [trajectory?, Option.bind_eq_bind, Option.bind_eq_some_iff]
        at hcurrent
      obtain ⟨previous, hprevious, transition, -, hcurrent⟩ := hcurrent
      obtain rfl := Option.some.inj hcurrent
      rw [Machine.blank_apply, ih hprevious]

end Program

/-- A configuration written out keeps the symbol under the head. -/
theorem Configuration.symbol?_snapshot (configuration : Configuration) :
    configuration.snapshot.symbol? = some configuration.tape.read := by
  simp [Snapshot.symbol?, snapshot, Tape.text, Tape.cells, Tape.head,
    Tape.read]

/-- A configuration written out loses no more than the blank of its tape. -/
theorem Configuration.ofCells_snapshot (configuration : Configuration) :
    Tape.ofCells configuration.snapshot.tape.toList
      configuration.snapshot.head configuration.tape.blank =
        configuration.tape := by
  rw [snapshot, Tape.text, String.toList_ofList, Tape.ofCells_cells]

namespace Machine

/-! ## Sessions -/

/-- What can be called on a machine. -/
inductive Call
  | step
  | run (bound : Nat)
  | reset
deriving DecidableEq

/-- The machine after a call. -/
def call (machine : Machine) : Call → Machine
  | .step => machine.step.2
  | .run bound => (machine.run bound).2
  | .reset => machine.reset

/-- The results of the given number of calls of `step`, oldest first. -/
def results (machine : Machine) (steps : Nat) : List Step :=
  (List.range steps).map fun earlier => (machine.after earlier).step.1

theorem results_succ (machine : Machine) (steps : Nat) :
    machine.results (steps + 1) =
      machine.results steps ++ [(machine.after steps).step.1] := by
  simp [results, List.range_succ]

/-- A machine in use. -/
structure Session where
  machine : Machine
  /-- The results of all calls of `step`, also those within a run, since the
  machine was made or last reset. -/
  results : List Step

namespace Session

/-- A fresh machine. -/
def new (program : Program) : Session where
  machine := .new program
  results := []

/-- The session after a call. -/
def call (session : Session) (call : Call) : Session where
  machine := session.machine.call call
  results :=
    match call with
    | .step => session.results ++ session.machine.results 1
    | .run bound => session.results ++
        session.machine.results (session.machine.stepsIn bound)
    | .reset => []

/-- The session after several calls, one after the other. -/
def callAll (session : Session) (calls : List Call) : Session :=
  calls.foldl call session

theorem machine_callAll (session : Session) (calls : List Call) :
    (session.callAll calls).machine =
      calls.foldl Machine.call session.machine := by
  induction calls generalizing session with
  | nil => rfl
  | cons call calls ih => exact ih (session.call call)

end Session

/-! ## The record of a session -/

/-- The machine is on the trajectory of the program and has recorded its way,
with a further record of where it is for each result that is a halt. -/
structure Recorded (program : Program) (machine : Machine)
    (results : List Step) : Prop where
  program_eq : machine.program = program
  current_eq :
    program.trajectory? machine.stepCount = some machine.current
  history_eq : ∀ index (hindex : index < machine.history.size),
    program.trajectory? (min index machine.stepCount) =
      some machine.history[index]
  size_history_eq :
    machine.history.size = machine.stepCount + results.count .halted
  last_eq : program.LastTaken machine.last machine.stepCount
  /-- Once a call of `step` has halted, all further ones do. -/
  stuck : .halted ∈ results → machine.transition? = none

namespace Recorded

variable {program : Program} {machine : Machine} {results : List Step}

/-- At the start of a session nothing has been recorded. -/
theorem of_initial (hprogram : machine.program = program)
    (hcurrent : machine.current = .initial program)
    (hhistory : machine.history = #[]) (hlast : machine.last = none)
    (hcount : machine.stepCount = 0) : Recorded program machine [] := by
  constructor
  case program_eq => exact hprogram
  case current_eq =>
    rw [hcount, hcurrent]
    rfl
  case history_eq =>
    intro index hindex
    simp [hhistory] at hindex
  case size_history_eq =>
    rw [hhistory, hcount]
    rfl
  case last_eq =>
    rw [hcount]
    exact hlast
  case stuck =>
    intro hhalted
    simp at hhalted

theorem new (program : Program) : Recorded program (.new program) [] :=
  of_initial rfl rfl rfl rfl rfl

variable (hrecorded : Recorded program machine results)
include hrecorded

/-- Where a rule applies, no call has halted yet, so that the history has no
further records and the new one comes right after it. -/
theorem step_of_transition? {transition : Transition}
    (hrule : machine.transition? = some transition) :
    Recorded program machine.step.2 (results ++ [machine.step.1]) := by
  have hnever : .halted ∉ results := by
    intro hhalted
    rw [hrecorded.stuck hhalted] at hrule
    contradiction
  have hsize : machine.history.size = machine.stepCount := by
    rw [hrecorded.size_history_eq, List.count_eq_zero_of_not_mem hnever,
      Nat.add_zero]
  have hrule' : machine.current.transition? program = some transition := by
    rw [← hrecorded.program_eq]
    exact hrule
  rw [step_eq_of_transition? hrule]
  constructor
  case program_eq => exact hrecorded.program_eq
  case current_eq =>
    exact Program.trajectory?_succ hrecorded.current_eq hrule'
  case history_eq =>
    intro index hindex
    rw [Array.size_push] at hindex
    rw [show min index (machine.stepCount + 1) = index by omega,
      Array.getElem_push]
    split
    · next hold =>
        have hearlier := hrecorded.history_eq index hold
        rwa [show min index machine.stepCount = index by omega] at hearlier
    · rw [show index = machine.stepCount by omega]
      exact hrecorded.current_eq
  case size_history_eq =>
    rw [Array.size_push, hsize, List.count_eq_zero_of_not_mem]
    simpa using hnever
  case last_eq =>
    exact ⟨machine.current, transition, hrecorded.current_eq, hrule', rfl⟩
  case stuck =>
    intro hhalted
    simp [hnever] at hhalted

/-- Where no rule applies, the configuration is recorded without being
counted. -/
theorem step_of_stuck (hstuck : machine.transition? = none) :
    Recorded program machine.step.2 (results ++ [machine.step.1]) := by
  have hsize := hrecorded.size_history_eq
  rw [step_eq_of_stuck hstuck]
  constructor
  case program_eq => exact hrecorded.program_eq
  case current_eq => exact hrecorded.current_eq
  case history_eq =>
    intro index hindex
    rw [Array.size_push] at hindex
    rw [Array.getElem_push]
    split
    · next hold => exact hrecorded.history_eq index hold
    · rw [show min index machine.stepCount = machine.stepCount by omega]
      exact hrecorded.current_eq
  case size_history_eq =>
    rw [Array.size_push, hsize, List.count_append]
    rfl
  case last_eq => exact hrecorded.last_eq
  case stuck =>
    intro _
    exact hstuck

theorem step :
    Recorded program machine.step.2 (results ++ [machine.step.1]) := by
  cases hrule : machine.transition? with
  | none => exact hrecorded.step_of_stuck hrule
  | some transition => exact hrecorded.step_of_transition? hrule

theorem after (steps : Nat) :
    Recorded program (machine.after steps)
      (results ++ machine.results steps) := by
  induction steps with
  | zero =>
      rw [Machine.results, List.range_zero, List.map_nil, List.append_nil]
      exact hrecorded
  | succ steps ih =>
      rw [after_succ, results_succ, ← List.append_assoc]
      exact ih.step

/-- The oldest record is the initial configuration; if there is none, the
machine has not left it. -/
theorem reset : Recorded program machine.reset [] := by
  refine of_initial hrecorded.program_eq ?_ rfl rfl rfl
  by_cases hpos : 0 < machine.history.size
  · have hfirst := hrecorded.history_eq 0 hpos
    rw [Nat.zero_min] at hfirst
    rw [Machine.reset, Array.getElem?_eq_getElem hpos]
    exact (Option.some.inj hfirst).symm
  · have hcount : machine.stepCount = 0 := by
      have hsize := hrecorded.size_history_eq
      omega
    have hcurrent := hrecorded.current_eq
    rw [hcount] at hcurrent
    rw [Machine.reset, Array.getElem?_eq_none (Nat.le_of_not_lt hpos)]
    exact (Option.some.inj hcurrent).symm

/-- Going back needs only what the oldest record has written out, and the
blank of the program. -/
theorem current_reset (hpos : 0 < machine.history.size) :
    machine.reset.current =
      { state := machine.history[0].snapshot.state
        tape := .ofCells machine.history[0].snapshot.tape.toList
          machine.history[0].snapshot.head program.blank } := by
  have hblank :=
    Program.blank_of_trajectory? (hrecorded.history_eq 0 hpos)
  rw [← hblank, Configuration.ofCells_snapshot, Machine.reset,
    Array.getElem?_eq_getElem hpos]
  rfl

end Recorded

namespace Session

variable {program : Program} {session : Session}

theorem recorded_call
    (hrecorded : Recorded program session.machine session.results)
    (call : Call) :
    Recorded program (session.call call).machine
      (session.call call).results := by
  cases call with
  | step => exact hrecorded.after 1
  | run bound =>
      rw [Session.call, Machine.call, run_eq_after]
      exact hrecorded.after _
  | reset => exact hrecorded.reset

theorem recorded_callAll
    (hrecorded : Recorded program session.machine session.results)
    (calls : List Call) :
    Recorded program (session.callAll calls).machine
      (session.callAll calls).results := by
  induction calls generalizing session with
  | nil => exact hrecorded
  | cons call calls ih => exact ih (recorded_call hrecorded call)

end Session

/-- Whatever is called on a machine, it is on the trajectory of its program,
its history is the trajectory up to there with a repetition for every halt, and
the rule applied last is the one that led there.  Written out, a record has the
state, the cells and the head of its configuration. -/
theorem history_eq_trajectory (program : Program) (calls : List Call) :
    let session := (Session.new program).callAll calls
    let machine := session.machine
    machine = calls.foldl call (.new program) ∧
      program.trajectory? machine.stepCount = some machine.current ∧
      (∀ index (hindex : index < machine.history.size),
        program.trajectory? (min index machine.stepCount) =
            some machine.history[index] ∧
          machine.history[index].snapshot =
            { state := machine.history[index].state
              tape := String.ofList machine.history[index].tape.cells
              head := machine.history[index].tape.head } ∧
          machine.history[index].snapshot.symbol? =
            some machine.history[index].tape.read) ∧
      machine.history.size =
        machine.stepCount + session.results.count .halted ∧
      program.LastTaken machine.last machine.stepCount := by
  intro session machine
  have hrecorded : Recorded program machine session.results :=
    Session.recorded_callAll (Recorded.new program) calls
  refine ⟨Session.machine_callAll _ calls, hrecorded.current_eq, ?_,
    hrecorded.size_history_eq, hrecorded.last_eq⟩
  intro index hindex
  exact ⟨hrecorded.history_eq index hindex, rfl,
    machine.history[index].symbol?_snapshot⟩

/-- A run that halts records the last configuration, and so does the call of
`step` after it; only the first record has been counted. -/
example :
    let program : Program :=
      { name := "once", initialState := "start", tape := ['a'], head := 0
        blank := '_', accepting := ∅
        table := (∅ : Table).insert "start"
          ((∅ : Row).insert 'a' ⟨"done", 'b', .right⟩) }
    let session := (Session.new program).callAll [.run 5, .step]
    session.machine.stepCount = 1 ∧
      session.results = [.continued, .halted, .halted] ∧
      session.machine.history.map (·.state) = #["start", "done", "done"] := by
  decide +kernel

end Machine

end XorOrbit
