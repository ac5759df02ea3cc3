import XorOrbit.Proofs.Run.History

/-!
# Going back to the start

However the calls on a machine are mixed, its oldest record is the initial
configuration, and without a record it has not left it.  So a reset leaves the
machine as it was made.  The record need not be kept as it is for this: reading
the oldest one back from its text gives the same tape, since the head that was
written out with it is on a cell.
-/

namespace XorOrbit

/-- The configuration that has been written out, on a tape with the given
blank. -/
def Snapshot.restore (snapshot : Snapshot) (blank : Char) :
    Configuration where
  state := snapshot.state
  tape := .ofCells snapshot.tape.toList snapshot.head blank

namespace Machine

/-- Goes back by reading the oldest record from what it has written out; without
a record the state and the tape are left as they are. -/
def resetFromText (machine : Machine) : Machine :=
  { machine with
    current :=
      match machine.history[0]? with
      | some oldest => oldest.snapshot.restore machine.program.blank
      | none => machine.current
    history := #[]
    last := none
    stepCount := 0 }

namespace Recorded

variable {program : Program} {machine : Machine} {results : List Step}
  (hrecorded : Recorded program machine results)
include hrecorded

theorem reset_eq_new : machine.reset = .new program := by
  have hcurrent : machine.reset.current = .initial program :=
    (Option.some.inj hrecorded.reset.current_eq).symm
  calc machine.reset
      = { machine with
          current := machine.reset.current
          history := #[]
          last := none
          stepCount := 0 } := rfl
    _ = .new program := by
      rw [hcurrent, hrecorded.program_eq]
      rfl

theorem resetFromText_eq_reset : machine.resetFromText = machine.reset := by
  have hcurrent : machine.resetFromText.current = machine.reset.current := by
    by_cases hpos : 0 < machine.history.size
    · rw [hrecorded.current_reset hpos, resetFromText,
        Array.getElem?_eq_getElem hpos, hrecorded.program_eq]
      rfl
    · rw [resetFromText, Machine.reset,
        Array.getElem?_eq_none (Nat.le_of_not_lt hpos)]
      rfl
  calc machine.resetFromText
      = { machine with
          current := machine.resetFromText.current
          history := #[]
          last := none
          stepCount := 0 } := rfl
    _ = machine.reset := by
      rw [hcurrent]
      rfl

end Recorded

/-- A reset after any calls leaves the machine as it was made, whether it takes
the oldest record or reads it back from its text.  Every later run repeats what
the same run does on a fresh machine. -/
theorem reset_undoes_calls (program : Program) (calls : List Call) :
    let machine := calls.foldl call (.new program)
    machine.reset = .new program ∧
      machine.resetFromText = .new program ∧
      (∀ bound, machine.reset.run bound = (new program).run bound) ∧
      ∀ later : List Call,
        later.foldl call machine.reset = later.foldl call (.new program) := by
  intro machine
  have hmachine : ((Session.new program).callAll calls).machine = machine :=
    Session.machine_callAll _ calls
  have hrecorded : Recorded program machine
      ((Session.new program).callAll calls).results :=
    hmachine ▸ Session.recorded_callAll (Recorded.new program) calls
  have hreset := hrecorded.reset_eq_new
  refine ⟨hreset, hrecorded.resetFromText_eq_reset.trans hreset, ?_, ?_⟩
  · intro bound
    rw [hreset]
  · intro later
    rw [hreset]

/-- The head starts beyond an empty tape and leaves it on the left. -/
example :
    let program : Program :=
      { name := "leave", initialState := "go", tape := [], head := 1
        blank := '_', accepting := ∅
        table := (∅ : Table).insert "go"
          ((∅ : Row).insert '_' ⟨"go", 'x', .left⟩) }
    let machine := [.run 3, .reset, .run 4, .step].foldl call (new program)
    machine.tape.text = "_xxxxx" ∧ machine.reset = new program := by
  decide +kernel

end Machine

end XorOrbit
