import XorOrbit.Alphabet

/-!
# Reading the regions of a tape

The readers find the scratch word, the seed and the log in any row of cells by
looking for the separators, whether or not a program has put them there.
-/

namespace XorOrbit.Regions

/-- What follows the first occurrence of a symbol. -/
def after? (symbol : Char) (cells : List Char) : Option (List Char) :=
  match cells.dropWhile (· != symbol) with
  | [] => none
  | _ :: rest => some rest

/-- What precedes the first occurrence of a symbol. -/
def before? (symbol : Char) (cells : List Char) : Option (List Char) :=
  if cells.contains symbol then some (cells.takeWhile (· != symbol)) else none

/-- The seed: what stands between the first seed start and the seed end that
follows it. -/
def seed? (cells : List Char) : Option (List Char) := do
  let rest ← after? Symbol.seedStart cells
  before? Symbol.seedEnd rest

/-- The scratch word: the cells directly left of the seed start, back to the
nearest blank. -/
def scratch? (cells : List Char) : Option (List Char) := do
  let left ← before? Symbol.seedStart cells
  return (left.reverse.takeWhile (· != Symbol.blank)).reverse

/-- The cells without the blanks at their end. -/
def trimEnd (cells : List Char) : List Char :=
  (cells.reverse.dropWhile (· == Symbol.blank)).reverse

/-- The log entries, oldest first: the non-empty pieces between terminators
after the first seed end. -/
def history (cells : List Char) : List (List Char) :=
  match after? Symbol.seedEnd cells with
  | none => []
  | some log =>
    ((trimEnd log).splitOn Symbol.entryEnd).filter (!·.isEmpty)

end XorOrbit.Regions
