import XorOrbit.Program.Direction

/-!
# Transitions

What a rule does once its state and symbol have been recognized, and the record
of a rule that has been applied.
-/

namespace XorOrbit

/-- The effect of one rule: write, move, and go on in the next state. -/
structure Transition where
  nextState : String
  write : Char
  direction : Direction
deriving DecidableEq

/-- A transition together with the state and symbol that led to it. -/
structure TakenTransition where
  source : String
  read : Char
  transition : Transition
deriving DecidableEq

/-- A complete rule of a program. -/
structure Rule where
  state : String
  read : Char
  write : Char
  direction : Direction
  next : String
deriving DecidableEq

/-- What the rule does when it applies. -/
def Rule.transition (rule : Rule) : Transition :=
  ⟨rule.next, rule.write, rule.direction⟩

end XorOrbit
