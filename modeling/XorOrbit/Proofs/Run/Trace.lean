import Mathlib.Data.List.Induction
import Mathlib.Logic.Relation
import XorOrbit.Machine
import XorOrbit.Proofs.Run.Phrase
import XorOrbit.Proofs.Tape.Cut

/-!
# Traces

A trace leads from one configuration to another by applied rules.  It carries
a condition on the configurations that it leaves, so that a property of all
configurations of a run can be read off the trace, while the last configuration
may already belong to what comes next.  The condition sees the state and the
cells but not the head, which is what lets a sweep of the head over a row of
cells meet it once for the whole row.
-/

namespace XorOrbit

/-- One rule of the program leads from the first configuration to the second. -/
def Configuration.Next
    (program : Program) (current following : Configuration) : Prop :=
  ∃ transition, current.transition? program = some transition ∧
    following = current.apply transition

/-- The rules of the program lead from the first configuration to the second,
and every configuration that they leave satisfies the condition. -/
def Trace (program : Program) (via : String → List Char → Prop) :
    Configuration → Configuration → Prop :=
  Relation.ReflTransGen fun current following =>
    via current.state current.tape.cells ∧
      current.Next program following

namespace Configuration

/-- At most one configuration follows. -/
theorem Next.unique {program : Program} {current first second : Configuration}
    (hfirst : current.Next program first)
    (hsecond : current.Next program second) : first = second := by
  obtain ⟨transition, htransition, rfl⟩ := hfirst
  obtain ⟨transition', htransition', rfl⟩ := hsecond
  rw [htransition] at htransition'
  rw [Option.some.inj htransition']

end Configuration

namespace Trace

variable {program : Program} {via : String → List Char → Prop}

theorem refl (current : Configuration) : Trace program via current current :=
  Relation.ReflTransGen.refl

theorem trans {first second third : Configuration}
    (hfirst : Trace program via first second)
    (hsecond : Trace program via second third) :
    Trace program via first third :=
  Relation.ReflTransGen.trans hfirst hsecond

/-- The condition of a trace can be weakened. -/
theorem mono {via' : String → List Char → Prop}
    {first last : Configuration}
    (htrace : Trace program via first last)
    (hvia : ∀ state cells, via state cells → via' state cells) :
    Trace program via' first last :=
  Relation.ReflTransGen.mono
    (fun _ _ hstep => ⟨hvia _ _ hstep.1, hstep.2⟩) _ _ htrace

/-- A rule that applies makes a trace of one step. -/
theorem single (current : Configuration) {transition : Transition}
    (hrule : program.transition? current.state current.tape.read =
      some transition)
    (hvia : via current.state current.tape.cells) :
    Trace program via current (current.apply transition) :=
  Relation.ReflTransGen.single ⟨hvia, transition, hrule, rfl⟩

/-! ## Single moves of the head -/

section Moves

variable {state next : String} {symbol written : Char}
  (via : String → List Char → Prop) (left right : List Char)

theorem moveRight
    (hrule : program.transition? state symbol =
      some ⟨next, written, .right⟩)
    (hvia : via state (left ++ symbol :: right)) :
    Trace program via ⟨state, .rightOf left (symbol :: right)⟩
      ⟨next, .rightOf (left ++ [written]) right⟩ := by
  have hstep := single ⟨state, .rightOf left (symbol :: right)⟩ hrule
    (by simpa [Tape.cells_rightOf_cons] using hvia)
  simpa [Configuration.apply, Tape.shift_right_rightOf] using hstep

theorem moveLeft
    (hrule : program.transition? state symbol =
      some ⟨next, written, .left⟩)
    (hvia : via state (left ++ symbol :: right)) :
    Trace program via ⟨state, .rightOf left (symbol :: right)⟩
      ⟨next, .leftOf left (written :: right)⟩ := by
  have hstep := single ⟨state, .rightOf left (symbol :: right)⟩ hrule
    (by simpa [Tape.cells_rightOf_cons] using hvia)
  simpa [Configuration.apply, Tape.shift_left_rightOf] using hstep

theorem stay
    (hrule : program.transition? state symbol =
      some ⟨next, written, .stay⟩)
    (hvia : via state (left ++ symbol :: right)) :
    Trace program via ⟨state, .rightOf left (symbol :: right)⟩
      ⟨next, .rightOf left (written :: right)⟩ := by
  have hstep := single ⟨state, .rightOf left (symbol :: right)⟩ hrule
    (by simpa [Tape.cells_rightOf_cons] using hvia)
  simpa [Configuration.apply, Tape.shift_stay_rightOf] using hstep

end Moves

/-! ## Sweeps

The head crosses a row of cells that the state leaves as they are, and on the
cell behind the row another rule of the same state applies. -/

section Sweeps

variable {state next : String} {symbols : List Char}
  {symbol written : Char} (via : String → List Char → Prop)
  (left row right : List Char)

theorem sweepRight
    (hpass : program.Passes state symbols .right) (hrow : row ⊆ symbols)
    (hvia : via state (left ++ row ++ right)) :
    Trace program via ⟨state, .rightOf left (row ++ right)⟩
      ⟨state, .rightOf (left ++ row) right⟩ := by
  induction row generalizing left with
  | nil => simpa using refl _
  | cons symbol row ih =>
      rw [List.cons_subset] at hrow
      have hfirst := moveRight via left (row ++ right) (hpass symbol hrow.1)
        (by simpa using hvia)
      have hrest := ih (left ++ [symbol]) hrow.2 (by simpa using hvia)
      simpa using hfirst.trans hrest

theorem sweepLeft
    (hpass : program.Passes state symbols .left) (hrow : row ⊆ symbols)
    (hvia : via state (left ++ row ++ right)) :
    Trace program via ⟨state, .leftOf (left ++ row) right⟩
      ⟨state, .leftOf left (row ++ right)⟩ := by
  induction row using List.reverseRecOn generalizing right with
  | nil => simpa using refl _
  | append_singleton row symbol ih =>
      rw [List.append_subset, List.cons_subset] at hrow
      have hfirst := moveLeft via (left ++ row) right
        (hpass symbol hrow.2.1) (by simpa using hvia)
      have hrest := ih (symbol :: right) hrow.1 (by simpa using hvia)
      rw [← List.append_assoc, Tape.leftOf_concat]
      simpa using hfirst.trans hrest

theorem rightThenRight
    (hpass : program.Passes state symbols .right) (hrow : row ⊆ symbols)
    (hrule : program.transition? state symbol =
      some ⟨next, written, .right⟩)
    (hvia : via state (left ++ row ++ symbol :: right)) :
    Trace program via ⟨state, .rightOf left (row ++ symbol :: right)⟩
      ⟨next, .rightOf (left ++ row ++ [written]) right⟩ :=
  (sweepRight via left row _ hpass hrow hvia).trans
    (moveRight via _ right hrule hvia)

theorem rightThenLeft
    (hpass : program.Passes state symbols .right) (hrow : row ⊆ symbols)
    (hrule : program.transition? state symbol =
      some ⟨next, written, .left⟩)
    (hvia : via state (left ++ row ++ symbol :: right)) :
    Trace program via ⟨state, .rightOf left (row ++ symbol :: right)⟩
      ⟨next, .leftOf (left ++ row) (written :: right)⟩ :=
  (sweepRight via left row _ hpass hrow hvia).trans
    (moveLeft via _ right hrule hvia)

/-- A sweep to the left ends with the head on the cell before the row. -/
theorem sweepLeft_rightOf
    (hpass : program.Passes state symbols .left) (hrow : row ⊆ symbols)
    (hvia : via state (left ++ symbol :: row ++ right)) :
    Trace program via ⟨state, .leftOf (left ++ symbol :: row) right⟩
      ⟨state, .rightOf left (symbol :: row ++ right)⟩ := by
  have hsweep := sweepLeft via (left ++ [symbol]) row right hpass hrow
    (by simpa using hvia)
  simpa [Tape.leftOf_concat] using hsweep

theorem leftThenLeft
    (hpass : program.Passes state symbols .left) (hrow : row ⊆ symbols)
    (hrule : program.transition? state symbol =
      some ⟨next, written, .left⟩)
    (hvia : via state (left ++ symbol :: row ++ right)) :
    Trace program via ⟨state, .leftOf (left ++ symbol :: row) right⟩
      ⟨next, .leftOf left (written :: row ++ right)⟩ :=
  (sweepLeft_rightOf via left row right hpass hrow hvia).trans
    (moveLeft via left _ hrule (by simpa using hvia))

theorem leftThenRight
    (hpass : program.Passes state symbols .left) (hrow : row ⊆ symbols)
    (hrule : program.transition? state symbol =
      some ⟨next, written, .right⟩)
    (hvia : via state (left ++ symbol :: row ++ right)) :
    Trace program via ⟨state, .leftOf (left ++ symbol :: row) right⟩
      ⟨next, .rightOf (left ++ [written]) (row ++ right)⟩ :=
  (sweepLeft_rightOf via left row right hpass hrow hvia).trans
    (moveRight via left _ hrule (by simpa using hvia))

theorem leftThenStay
    (hpass : program.Passes state symbols .left) (hrow : row ⊆ symbols)
    (hrule : program.transition? state symbol =
      some ⟨next, written, .stay⟩)
    (hvia : via state (left ++ symbol :: row ++ right)) :
    Trace program via ⟨state, .leftOf (left ++ symbol :: row) right⟩
      ⟨next, .rightOf left (written :: row ++ right)⟩ :=
  (sweepLeft_rightOf via left row right hpass hrow hvia).trans
    (stay via left _ hrule (by simpa using hvia))

/-- The head crosses a row in states that count its cells. -/
theorem stepsRight (states : Nat → String)
    (hsteps : ∀ step < row.length, ∀ symbol ∈ symbols,
      program.transition? (states step) symbol =
        some ⟨states (step + 1), symbol, .right⟩)
    (hrow : row ⊆ symbols)
    (hvia : ∀ step, via (states step) (left ++ row ++ right)) :
    Trace program via ⟨states 0, .rightOf left (row ++ right)⟩
      ⟨states row.length, .rightOf (left ++ row) right⟩ := by
  induction row using List.reverseRecOn generalizing right with
  | nil => simpa using refl _
  | append_singleton row symbol ih =>
      rw [List.append_subset, List.cons_subset] at hrow
      rw [List.length_append, List.length_singleton] at hsteps
      have hfirst := ih (symbol :: right)
        (fun step hstep => hsteps step (by omega)) hrow.1
        (by simpa using hvia)
      have hlast := moveRight via (left ++ row) right
        (hsteps row.length (by omega) symbol hrow.2.1)
        (by simpa using hvia row.length)
      simpa using hfirst.trans hlast

end Sweeps

end Trace

end XorOrbit
