import XorOrbit.Program.Table

/-!
# Programs

A program is a rule table with the tape it starts on.  It is plain data: nothing
here requires that the table makes sense, which is what `Program.analyze`
decides.
-/

namespace XorOrbit

/-- A rule table, the configuration it starts from and the states it accepts
in. -/
structure Program where
  name : String
  initialState : String
  tape : List Char
  head : Nat
  blank : Char
  accepting : Std.ExtTreeSet String
  table : Table
deriving DecidableEq

namespace Program

/-- The initial tape as text. -/
def tapeText (program : Program) : String := String.ofList program.tape

/-- The transition for a state and the symbol under the head. -/
def transition? (program : Program) (state : String) (symbol : Char) :
    Option Transition :=
  program.table.transition? state symbol

/-- Whether a run that enters the state accepts. -/
def isAccepting (program : Program) (state : String) : Bool :=
  program.accepting.contains state

end Program

end XorOrbit
