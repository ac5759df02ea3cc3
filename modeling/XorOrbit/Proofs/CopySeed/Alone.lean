import XorOrbit.Proofs.CopySeed.Outline
import XorOrbit.Proofs.Fragment.Alone

/-!
# The copy on its own

The copy does not depend on the length of the words: on any tape with a scratch
word in front of a seed, and with the head on any cell up to the seed end, it
replaces the scratch word by the seed.
-/

namespace XorOrbit.Synthesis

/-- On its own the copy clears the scratch word and writes the seed in its
place, with the head on the first scratch bit, or on the seed start if the seed
is empty.  No marker is left in the seed, and nothing behind it has changed. -/
theorem copySeed_endsIn (start done : String) (ns : Namespace)
    (hlabels : ns.Outside [start, done]) (scratch seed : Word)
    (right : List Char) (padding head : Nat)
    (hhead : head ≤ padding + scratch.length + 1 + seed.length) :
    ((copySeed start done ns).program start [done]
      (blanks padding ++ scratch.cells ++ Symbol.seedStart :: seed.cells ++
        Symbol.seedEnd :: right) head).EndsIn
      ⟨done, .ofCells
        (blanks (copyPadding padding scratch seed) ++ seed.cells ++
          Symbol.seedStart :: seed.cells ++ Symbol.seedEnd :: right)
        (copyPadding padding scratch seed) Symbol.blank⟩ := by
  have hrules := copySeed_comprises start done ns
    (hlabels.not_owns start List.mem_cons_self)
  have hleaves := hlabels.state_notMem (fits_copySeed start done ns)
  obtain ⟨left, row, hrow, rfl⟩ : ∃ left row, left ++ row =
      blanks padding ++ scratch.cells ++ Symbol.seedStart :: seed.cells ∧
        left.length = head := by
    refine ⟨_, _, List.take_append_drop head _, ?_⟩
    rw [List.length_take, Nat.min_eq_left]
    simp only [blanks, List.length_append, List.length_replicate,
      List.length_cons, Word.length_cells]
    omega
  have hends := hrules.endsIn hleaves (List.mem_singleton_self done)
    (copySeed_trace hrules.follows_program scratch seed padding left row
      right hrow)
  rw [← List.append_assoc, hrow] at hends
  simpa [blanks] using hends

/-- The scratch word may be longer than the seed, and the head may start on the
seed end. -/
theorem copySeed_endsIn_long_scratch :
    (Namespace.mk "copy").Outside ["entry", "exit"] ∧
      ((copySeed "entry" "exit" ⟨"copy"⟩).program "entry" ["exit"]
        "_110@01#$".toList 7).EndsIn
          ⟨"exit", .ofCells "__01@01#$".toList 2 Symbol.blank⟩ := by
  have hlabels : (Namespace.mk "copy").Outside ["entry", "exit"] :=
    Namespace.outside_of_notMem _ (by decide) (by decide)
  exact ⟨hlabels, copySeed_endsIn "entry" "exit" ⟨"copy"⟩ hlabels
    [true, true, false] [false, true] "$".toList 1 7 (by decide)⟩

end XorOrbit.Synthesis
