import XorOrbit.Layout
import XorOrbit.Word.Orbit

/-!
# Generators

The parameters of one xorshift generator and the sequence of seeds that it runs
through, computed by shifting words.  Shift amounts are not restricted: a shift
by zero clears the word, and a shift by its length or more leaves it as it is.
-/

namespace XorOrbit

/-- The parameters of a generator and of the tape its program starts on. -/
structure Generator where
  name : String
  description : String
  /-- The initial seed, written with `0` and `1`; its length is that of the
  words. -/
  seed : String
  /-- The first shift, to the left. -/
  a : Nat
  /-- The second shift, to the right. -/
  b : Nat
  /-- The third shift, to the left. -/
  c : Nat
  /-- Blanks left of the room for the scratch word. -/
  leftPadding : Nat
  /-- Blanks for the log. -/
  historyReserve : Nat
deriving DecidableEq

namespace Generator

/-- The generator with the given seed and shifts and the usual padding. -/
def new (seed : String) (a b c : Nat) : Generator where
  name := "xorshift"
  description := ""
  seed
  a
  b
  c
  leftPadding := 10
  historyReserve := 500

/-- The number of bits in a word. -/
def wordLength (generator : Generator) : Nat := generator.seed.length

/-- Checks that the seed is a word and gives its layout. -/
def validate (generator : Generator) : Except Error Layout :=
  if generator.seed.isEmpty then .error (.invalidGenerator .emptySeed)
  else
    match generator.seed.toList.find? (· ∉ Symbol.bits) with
    | some found => .error (.invalidGenerator (.strayCharacter found))
    | none => Layout.ofLength generator.wordLength

/-- The signed offsets of the three steps.  A shift beyond the word length
has the effect of a shift by the word length, so the amounts stop there. -/
def offsets (generator : Generator) (layout : Layout) : Int × Int × Int :=
  ((min generator.a layout.wordLength : Nat),
    -(min generator.b layout.wordLength : Nat),
    (min generator.c layout.wordLength : Nat))

/-- The offsets as signed numbers of 64 bits, which wrap around for words of
`2 ^ 63` bits or more. -/
def offsets64 (generator : Generator) (layout : Layout) :
    Int64 × Int64 × Int64 :=
  let (a, b, c) := generator.offsets layout
  (.ofInt a, .ofInt b, .ofInt c)

/-- The next word: each step combines the word with its shifted copy. -/
def next (generator : Generator) (layout : Layout) (word : Word) : Word :=
  let (a, b, c) := generator.offsets layout
  ((word.xorShifted a).xorShifted b).xorShifted c

/-- The seeds from the initial one up to and including the first repeated
one. -/
def reference (generator : Generator) : Except Error (List Word) := do
  let layout ← generator.validate
  return Word.orbit (generator.next layout) (.ofText generator.seed)

end Generator

end XorOrbit
