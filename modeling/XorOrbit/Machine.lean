import XorOrbit.Program
import XorOrbit.Tape

/-!
# Running programs

A machine is a program with a current configuration and a record of where it
has been.  Every call of `step` records the configuration before it, also when
no rule applies; only applied rules are counted.
-/

namespace XorOrbit

/-- A state and a tape with its head. -/
structure Configuration where
  state : String
  tape : Tape
deriving DecidableEq

/-- A configuration written out: the cells as text and the head as an index
into it. -/
structure Snapshot where
  state : String
  tape : String
  head : Nat
deriving DecidableEq

/-- The symbol under the head, if the head is within the text. -/
def Snapshot.symbol? (snapshot : Snapshot) : Option Char :=
  snapshot.tape.toList[snapshot.head]?

namespace Configuration

/-- The configuration in which a program starts. -/
def initial (program : Program) : Configuration where
  state := program.initialState
  tape := Tape.ofCells program.tape program.head program.blank

/-- The configuration written out. -/
def snapshot (configuration : Configuration) : Snapshot where
  state := configuration.state
  tape := configuration.tape.text
  head := configuration.tape.head

/-- The rule that applies to the configuration, if there is one. -/
def transition? (configuration : Configuration) (program : Program) :
    Option Transition :=
  program.transition? configuration.state configuration.tape.read

/-- The configuration after a transition. -/
def apply (configuration : Configuration) (transition : Transition) :
    Configuration where
  state := transition.nextState
  tape := (configuration.tape.write transition.write).shift
    transition.direction

end Configuration

/-- Whether a step applied a rule. -/
inductive Step
  | continued
  | halted
deriving DecidableEq

/-- Why a bounded run ended. -/
inductive Outcome
  | accepted
  | halted
  | exhausted
deriving DecidableEq

namespace Outcome

/-- The word that stands for the outcome in records. -/
def name : Outcome → String
  | accepted => "Accepted"
  | halted => "Halted"
  | exhausted => "Exhausted"

/-- All outcomes, in the order in which records list their names. -/
def all : List Outcome := [accepted, halted, exhausted]

/-- The outcome with the given name. -/
def ofName? (name : String) : Option Outcome := all.find? (·.name == name)

/-- Whether the run ended in an accepting state. -/
def isAccepted (outcome : Outcome) : Bool := outcome == accepted

end Outcome

/-- A running program. -/
structure Machine where
  program : Program
  current : Configuration
  /-- The configurations before each call of `step`, oldest first. -/
  history : Array Configuration
  /-- The rule applied last. -/
  last : Option TakenTransition
  /-- The number of rules applied. -/
  stepCount : Nat
deriving DecidableEq

namespace Machine

/-- The program in its initial configuration. -/
def new (program : Program) : Machine where
  program
  current := .initial program
  history := #[]
  last := none
  stepCount := 0

/-- The current state. -/
def state (machine : Machine) : String := machine.current.state

/-- The current tape. -/
def tape (machine : Machine) : Tape := machine.current.tape

/-- The symbol under the head. -/
def symbol (machine : Machine) : Char := machine.tape.read

/-- The rule that applies next. -/
def transition? (machine : Machine) : Option Transition :=
  machine.current.transition? machine.program

/-- Whether no rule applies. -/
def isHalted (machine : Machine) : Bool := machine.transition?.isNone

/-- Whether the current state is accepting. -/
def isAccepting (machine : Machine) : Bool :=
  machine.program.isAccepting machine.state

/-- Records the current configuration and applies the next rule, if any. -/
def step (machine : Machine) : Step × Machine :=
  match machine with
  | { program, current, history, last, stepCount } =>
    match current.transition? program with
    | none =>
      (.halted,
        { program, current, history := history.push current, last, stepCount })
    | some transition =>
      (.continued,
        { program
          current := current.apply transition
          history := history.push current
          last := some ⟨current.state, current.tape.read, transition⟩
          stepCount := stepCount + 1 })

/-- A rule that is applied is counted. -/
theorem stepCount_of_step_eq {machine next : Machine}
    (h : machine.step = (.continued, next)) :
    next.stepCount = machine.stepCount + 1 := by
  unfold step at h
  split at h
  split at h
  · simp at h
  · simp only [Prod.mk.injEq, true_and] at h
    subst h
    rfl

/-- Steps until the state accepts, `bound` rules have been applied or none
applies, looking for these in that order. -/
def run (machine : Machine) (bound : Nat) : Outcome × Machine :=
  if machine.isAccepting then (.accepted, machine)
  else match bound with
    | 0 => (.exhausted, machine)
    | bound + 1 =>
      match machine.step with
      | (.halted, machine) => (.halted, machine)
      | (.continued, machine) => machine.run bound

/-- Goes back to the oldest recorded configuration and forgets the record. -/
def reset (machine : Machine) : Machine :=
  { machine with
    current := machine.history[0]?.getD machine.current
    history := #[]
    last := none
    stepCount := 0 }

end Machine

end XorOrbit
