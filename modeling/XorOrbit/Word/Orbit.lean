import Std.Data.ExtTreeSet
import XorOrbit.Word

/-!
# Orbits of words

Repeating a map on words of one length must run into a word seen before, since
there are only finitely many.  `Word.orbit` lists the words met up to and
including the first repeated one.
-/

namespace XorOrbit.Word

/-- Collects the words from `word` on, latest first, until one is already in
`seen` or `bound` further words have been tried. -/
def orbitFrom (next : Word → Word) :
    Nat → Std.ExtTreeSet Word → List Word → Word → List Word
  | 0, _, passed, word => word :: passed
  | bound + 1, seen, passed, word =>
    if word ∈ seen then word :: passed
    else orbitFrom next bound (seen.insert word) (word :: passed) (next word)

/-- The words `word`, `next word`, … up to and including the first that occurs
twice.  A word of `n` bits can be followed by at most `2 ^ n` words before one
of them repeats, so that bound is never the reason to stop. -/
def orbit (next : Word → Word) (word : Word) : List Word :=
  (orbitFrom next (Nat.pow 2 word.length) ∅ [] word).reverse

end XorOrbit.Word
