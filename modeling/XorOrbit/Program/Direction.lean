/-!
# Head movements
-/

namespace XorOrbit

/-- Where the head goes after writing. -/
inductive Direction
  | left
  | right
  | stay
deriving DecidableEq

namespace Direction

/-- The letter that stands for the direction in rule labels. -/
def letter : Direction → Char
  | left => 'L'
  | right => 'R'
  | stay => 'S'

/-- The word that stands for the direction in records. -/
def name : Direction → String
  | left => "Left"
  | right => "Right"
  | stay => "Stay"

/-- All directions, in the order in which records list their names. -/
def all : List Direction := [left, right, stay]

/-- The direction with the given name. -/
def ofName? (name : String) : Option Direction :=
  all.find? (·.name == name)

theorem ofName?_name (direction : Direction) :
    ofName? direction.name = some direction := by
  cases direction <;> decide

end Direction

end XorOrbit
