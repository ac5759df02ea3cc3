import XorOrbit.Proofs.Generator
import XorOrbit.Proofs.Word.Number

/-!
# The seeds of a generator as numbers

A seed is a number of as many bits as the words have, and the next one is
computed from it by multiplying and dividing by powers of two.  The amounts of
the shifts enter as they are given, however large.
-/

namespace XorOrbit.Generator

/-- The number that follows the given one. -/
def advanceNat (generator : Generator) (value : Nat) : Nat :=
  let size := 2 ^ generator.wordLength
  let first := value ^^^ (value * 2 ^ generator.a % size)
  let second := first ^^^ (first / 2 ^ generator.b)
  second ^^^ (second * 2 ^ generator.c % size)

/-- Shifting words is arithmetic on their numbers. -/
theorem toNat_advance {generator : Generator} {word : Word}
    (hlength : word.length = generator.wordLength) :
    (generator.advance word).toNat = generator.advanceNat word.toNat := by
  rw [advance, stepC, Word.toNat_xor_shiftLeft, length_stepB, length_stepA,
    stepB, Word.toNat_xor_shiftRight, stepA, Word.toNat_xor_shiftLeft, hlength]
  rfl

variable {generator : Generator} {layout : Layout} {last : Nat}

/-- The first repeated seed comes no later than there are words. -/
theorem FirstRepeat.le_two_pow (hlast : generator.FirstRepeat last)
    (hlayout : generator.validate = .ok layout) :
    last ≤ 2 ^ layout.wordLength := by
  have hle := Word.length_le_of_nodup hlast.nodup
    fun _ hword => length_of_mem_seeds hlayout hword
  rwa [length_seeds] at hle

/-- The reference sequence of a generator starts with its seed and goes on by
the arithmetic of the shifts.  It ends with the first seed that occurred
before, which is met after at most as many others as there are words. -/
theorem reference_follows_arithmetic (generator : Generator)
    (hword : generator.HasWord) :
    ∃ words, generator.reference = .ok words ∧
      2 ≤ words.length ∧ words.length ≤ 2 ^ generator.wordLength + 1 ∧
      (∀ word ∈ words, word.length = generator.wordLength) ∧
      words.head?.map Word.text = some generator.seed ∧
      (∀ index (hindex : index + 1 < words.length),
        words[index + 1].toNat =
          generator.advanceNat words[index].toNat) ∧
      words.dropLast.Nodup ∧
      ∃ final ∈ words.dropLast, words.getLast? = some final := by
  obtain ⟨layout, hlayout, hlength⟩ := hword.exists_layout
  obtain ⟨last, hlast, hreference⟩ := exists_reference_eq hlayout
  have hpos := hlast.pos
  have hbound := hlast.le_two_pow hlayout
  rw [hlength] at hbound
  have hdropLast : (generator.seeds (last + 1)).dropLast =
      generator.seeds last := by
    rw [seeds_succ, List.dropLast_concat]
  refine ⟨_, hreference, ?_, ?_, ?_, ?_, ?_, ?_, generator.seedAt last, ?_, ?_⟩
  · rw [length_seeds]
    omega
  · rw [length_seeds]
    omega
  · intro word hmem
    rw [length_of_mem_seeds hlayout hmem, hlength]
  · exact congrArg some (text_ofText_seed hlayout)
  · intro index hindex
    have hseed (position : Nat)
        (hposition : position < (generator.seeds (last + 1)).length) :
        (generator.seeds (last + 1))[position] =
          generator.seedAt position :=
      List.getElem_iterate ..
    rw [hseed, hseed, seedAt_succ, toNat_advance]
    rw [length_seedAt hlayout, hlength]
  · rw [hdropLast]
    exact hlast.nodup
  · rw [hdropLast]
    exact hlast.mem
  · rw [seeds_succ, List.getLast?_concat]

/-- With the other two shifts beyond the word length, only the last one changes
a seed. -/
theorem reference_follows_arithmetic_long_shifts :
    let generator := new "1011" (2 ^ 63 - 1) (2 ^ 64 - 1) 1
    generator.HasWord ∧
      ∃ words, generator.reference = .ok words ∧
        words.map Word.toNat = [11, 13, 7, 9, 11] ∧
        words.dropLast.Nodup ∧
        ∀ index (hindex : index + 1 < words.length),
          words[index + 1].toNat =
            generator.advanceNat words[index].toNat := by
  intro generator
  have hword : generator.HasWord := by decide
  obtain ⟨words, hreference, -, -, -, -, hadvance, hnodup, -⟩ :=
    reference_follows_arithmetic generator hword
  have hwords : generator.reference =
      .ok [[true, false, true, true], [true, true, false, true],
        [false, true, true, true], [true, false, false, true],
        [true, false, true, true]] := by
    decide
  refine ⟨hword, words, hreference, ?_, hnodup, hadvance⟩
  obtain rfl := Except.ok.inj (hwords.symm.trans hreference)
  decide

end XorOrbit.Generator
