import XorOrbit.Text.Quoted

/-!
# Defects of programs

The ways in which a program can be ill-formed, each with what is needed to
repair it.
-/

namespace XorOrbit

/-- A rule that leads to a state that is neither defined nor accepting. -/
structure DanglingRule where
  state : String
  read : Char
  next : String
deriving DecidableEq

/-- The rule as it is listed in a message. -/
def DanglingRule.text (rule : DanglingRule) : String :=
  rule.state ++ "[" ++ rule.read.toString ++ "] -> " ++ rule.next

/-- The first thing that is wrong with a program. -/
inductive Defect
  | emptyTape
  | acceptingWithRules (states : List String)
  | headOffTape (head : Nat)
  | undefinedStart (state : String)
  | undefinedNext (rules : List DanglingRule)
  | unreachable (states : List String)
  | unreadSymbols (symbols : List Char)
deriving DecidableEq

/-- The defect in words.  Dangling rules are listed in the order of their
texts. -/
def Defect.message : Defect → String
  | emptyTape => "No tape defined"
  | acceptingWithRules states =>
    "Accepting states have transitions: " ++ Quoted.texts states
  | headOffTape head => "Invalid head position: " ++ toString head
  | undefinedStart state => "Invalid start state: " ++ state
  | undefinedNext rules =>
    "Transitions reference undefined states: " ++
      Quoted.texts ((rules.map DanglingRule.text).mergeSort (· ≤ ·))
  | unreachable states =>
    "Unreachable states detected: " ++ Quoted.texts states
  | unreadSymbols symbols =>
    "Initial tape contains symbols not handled by any transition: " ++
      Quoted.characters symbols

end XorOrbit
