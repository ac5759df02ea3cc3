import XorOrbit.Alphabet

/-!
# Bit words

Words of bits, the leftmost bit first and most significant.  Shifting keeps the
length: bits that leave the word are lost and zeros come in on the other side.
-/

namespace XorOrbit

/-- A word of bits, the most significant bit first. -/
abbrev Word := List Bool

namespace Word

/-- Moves the bits `amount` places to the left. -/
def shiftLeft (word : Word) (amount : Nat) : Word :=
  word.drop amount ++ List.replicate (min amount word.length) false

/-- Moves the bits `amount` places to the right. -/
def shiftRight (word : Word) (amount : Nat) : Word :=
  List.replicate (min amount word.length) false ++
    word.take (word.length - amount)

/-- Moves the bits to the left by a positive offset and to the right by a
negative one, so that bit `i` of the result is bit `i + offset`. -/
def shift (word : Word) : Int → Word
  | .ofNat amount => word.shiftLeft amount
  | .negSucc amount => word.shiftRight (amount + 1)

/-- Exclusive or, bit by bit. -/
def xor (left right : Word) : Word := List.zipWith Bool.xor left right

/-- Combines a word with its own shifted copy. -/
def xorShifted (word : Word) (offset : Int) : Word :=
  word.xor (word.shift offset)

/-- The number that the word denotes. -/
def toNat (word : Word) : Nat :=
  word.foldl (fun value bit => 2 * value + bit.toNat) 0

/-- The tape cells that hold the word. -/
def cells (word : Word) : List Char := word.map Symbol.ofBit

/-- The word written with the symbols `0` and `1`. -/
def text (word : Word) : String := String.ofList word.cells

/-- Reads a word from its text; every symbol but `1` counts as a zero. -/
def ofText (text : String) : Word :=
  text.toList.map (· == Symbol.ofBit true)

@[simp] theorem length_shiftLeft (word : Word) (amount : Nat) :
    (word.shiftLeft amount).length = word.length := by
  simp [shiftLeft]; omega

@[simp] theorem length_shiftRight (word : Word) (amount : Nat) :
    (word.shiftRight amount).length = word.length := by
  simp [shiftRight]; omega

@[simp] theorem length_shift (word : Word) (offset : Int) :
    (word.shift offset).length = word.length := by
  cases offset <;> simp [shift]

@[simp] theorem length_xorShifted (word : Word) (offset : Int) :
    (word.xorShifted offset).length = word.length := by
  simp [xorShifted, xor]

/-- Writing a word and reading it back gives the word. -/
@[simp] theorem ofText_text (word : Word) : ofText word.text = word := by
  have bit : ∀ b : Bool, (Symbol.ofBit b == Symbol.ofBit true) = b := by
    decide
  simp [ofText, text, cells, Function.comp_def, bit]

end Word

end XorOrbit
