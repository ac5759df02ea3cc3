import Mathlib.Data.Set.Finite.Basic
import Mathlib.Data.Set.Finite.List
import XorOrbit.Proofs.Word.Shift

/-!
# Combining a word with its shifted copy is invertible

Where a shift brings in zeros from outside the word, the combination shows the
bits of the word as they were; from there the other bits can be read off one
after the other.  This needs a shift that moves the bits at all: combined with
itself every word becomes zero.
-/

namespace XorOrbit.Word

theorem bitAt_xorShifted (word : Word) (offset : Int) {position : Int}
    (hinside : 0 ≤ position ∧ position < word.length) :
    (word.xorShifted offset).bitAt position =
      Bool.xor (word.bitAt position) (word.bitAt (position + offset)) := by
  obtain ⟨index, rfl⟩ := Int.eq_ofNat_of_zero_le hinside.1
  have hindex : index < word.length := by omega
  have hlength : index < (word.xorShifted offset).length := by
    rwa [length_xorShifted]
  rw [bitAt_natCast _ hlength, bitAt_natCast _ hindex, ← Option.some_inj,
    ← List.getElem?_eq_getElem, getElem?_xorShifted,
    List.getElem?_eq_getElem hindex]
  rfl

/-- Words of one length with the same bits are equal. -/
theorem ext_bitAt {first second : Word}
    (hlength : first.length = second.length)
    (hbits : ∀ position : Int, 0 ≤ position ∧ position < first.length →
      first.bitAt position = second.bitAt position) :
    first = second := by
  apply List.ext_getElem hlength
  intro index hfirst hsecond
  have hbit := hbits index ⟨by omega, by omega⟩
  rwa [bitAt_natCast _ hfirst, bitAt_natCast _ hsecond] at hbit

/-! ## Reading the word off -/

section Cancel

variable {first second : Word} {offset : Int}

/-- The positions from which the given number of shifts leads out of the word
are known; the induction goes inwards from there. -/
theorem bitAt_eq_of_xorShifted_eq
    (hlength : first.length = second.length)
    (heq : first.xorShifted offset = second.xorShifted offset)
    (shifts : Nat) (position : Int)
    (houtside : position + shifts * offset < 0 ∨
      first.length ≤ position + shifts * offset) :
    first.bitAt position = second.bitAt position := by
  induction shifts generalizing position with
  | zero =>
      have houtside' : position < 0 ∨ first.length ≤ position := by
        simpa using houtside
      rw [bitAt_of_outside first houtside',
        bitAt_of_outside second (hlength ▸ houtside')]
  | succ shifts ih =>
      by_cases hinside : 0 ≤ position ∧ position < first.length
      · have hnext : first.bitAt (position + offset) =
            second.bitAt (position + offset) := by
          apply ih
          rw [Int.natCast_succ, Int.add_mul, Int.one_mul] at houtside
          omega
        have hfirst := bitAt_xorShifted first offset hinside
        have hsecond := bitAt_xorShifted second offset (hlength ▸ hinside)
        rw [heq, hsecond, hnext] at hfirst
        exact (Bool.xor_left_inj.mp hfirst).symm
      · rw [bitAt_of_outside first (by omega),
          bitAt_of_outside second (by omega)]

/-- As many shifts as the word has bits lead out of it from everywhere. -/
theorem eq_of_xorShifted_eq (hoffset : offset ≠ 0)
    (hlength : first.length = second.length)
    (heq : first.xorShifted offset = second.xorShifted offset) :
    first = second := by
  apply ext_bitAt hlength
  intro position hinside
  apply bitAt_eq_of_xorShifted_eq hlength heq first.length
  rcases lt_or_gt_of_ne hoffset with hneg | hpos
  · have hmul : first.length * offset ≤ first.length * -1 :=
      Int.mul_le_mul_of_nonneg_left (by omega) (by omega)
    omega
  · have hmul : (first.length : Int) * 1 ≤ first.length * offset :=
      Int.mul_le_mul_of_nonneg_left (by omega) (by omega)
    omega

/-- On the finitely many words of one length it is enough that different words
stay different. -/
theorem bijOn_xorShifted (hoffset : offset ≠ 0) (length : Nat) :
    Set.BijOn (fun word : Word => word.xorShifted offset)
      {word | word.length = length} {word | word.length = length} := by
  have hmaps : Set.MapsTo (fun word : Word => word.xorShifted offset)
      {word | word.length = length} {word | word.length = length} :=
    fun word hword => (length_xorShifted word offset).trans hword
  apply ((List.finite_length_eq Bool length).injOn_iff_bijOn_of_mapsTo
    hmaps).mp
  intro left hleft right hright heq
  exact eq_of_xorShifted_eq hoffset (hleft.trans hright.symm) heq

end Cancel

/-! ## Words without ones -/

@[simp] theorem bitAt_replicate_false (length : Nat) (position : Int) :
    bitAt (List.replicate length false) position = false := by
  rw [bitAt]
  split
  · rw [List.getD_eq_getElem?_getD, List.getElem?_replicate]
    split <;> rfl
  · rfl

theorem xorShifted_replicate_false (length : Nat) (offset : Int) :
    xorShifted (List.replicate length false) offset =
      List.replicate length false := by
  apply ext_bitAt (length_xorShifted _ offset)
  intro position hinside
  rw [length_xorShifted] at hinside
  rw [bitAt_xorShifted _ _ hinside, bitAt_replicate_false,
    bitAt_replicate_false]
  rfl

/-- Combined with itself a word becomes zero. -/
theorem xorShifted_zero (word : Word) :
    word.xorShifted 0 = List.replicate word.length false := by
  apply ext_bitAt (by simp)
  intro position hinside
  rw [length_xorShifted] at hinside
  rw [bitAt_xorShifted word 0 hinside, Int.add_zero, Bool.xor_self,
    bitAt_replicate_false]

end XorOrbit.Word
