import Mathlib.Data.List.GetD
import XorOrbit.Word

/-!
# Shifted words bit by bit

A signed offset shifts a word so that each bit is replaced by the one that
stands `offset` places further on, and by a zero if there is none.  A shift by
more than the length of the word is a shift by its length, so amounts can be
clamped without changing the result.
-/

namespace XorOrbit.Word

/-- The bit of the word at a signed position, zero outside the word. -/
def bitAt (word : Word) (position : Int) : Bool :=
  if 0 ≤ position then word.getD position.toNat false else false

theorem bitAt_of_outside (word : Word) {position : Int}
    (houtside : position < 0 ∨ word.length ≤ position) :
    word.bitAt position = false := by
  rw [bitAt]
  split
  · exact List.getD_eq_default _ _ (by omega)
  · rfl

theorem bitAt_natCast (word : Word) {index : Nat}
    (hindex : index < word.length) : word.bitAt index = word[index] := by
  rw [bitAt, if_pos (Int.natCast_nonneg index)]
  exact List.getD_eq_getElem _ _ hindex

theorem getElem_shiftLeft (word : Word) (amount index : Nat)
    (hindex : index < (word.shiftLeft amount).length) :
    (word.shiftLeft amount)[index] = word.getD (index + amount) false := by
  rw [length_shiftLeft] at hindex
  simp only [shiftLeft, List.getElem_append, List.getElem_drop,
    List.getElem_replicate, List.length_drop]
  split
  · have hinside : amount + index < word.length := by omega
    rw [List.getD_eq_getElem _ _ (by omega)]
    simp only [Nat.add_comm]
  · rw [List.getD_eq_default _ _ (by omega)]

theorem getElem_shiftRight (word : Word) (amount index : Nat)
    (hindex : index < (word.shiftRight amount).length) :
    (word.shiftRight amount)[index] =
      if amount ≤ index then word.getD (index - amount) false else false := by
  rw [length_shiftRight] at hindex
  simp only [shiftRight, List.getElem_append, List.getElem_take,
    List.getElem_replicate, List.length_replicate]
  by_cases hamount : amount ≤ index
  · have hmin : min amount word.length = amount := by omega
    rw [dif_neg (by omega), if_pos hamount,
      List.getD_eq_getElem _ _ (by omega)]
    simp only [hmin]
  · rw [dif_pos (by omega), if_neg hamount]

theorem getElem_shift (word : Word) (offset : Int) (index : Nat)
    (hindex : index < (word.shift offset).length) :
    (word.shift offset)[index] = word.bitAt (index + offset) := by
  cases offset with
  | ofNat amount =>
      simp only [shift]
      rw [getElem_shiftLeft, bitAt, if_pos (by simp; omega)]
      congr 1
  | negSucc amount =>
      simp only [shift]
      rw [getElem_shiftRight, bitAt]
      by_cases hamount : amount + 1 ≤ index
      · rw [if_pos hamount, if_pos (by omega)]
        congr 1
        omega
      · rw [if_neg hamount, if_neg (by omega)]

/-- A shift by the length clears the word, and so does every longer one. -/
theorem shiftLeft_min (word : Word) (amount : Nat) :
    word.shiftLeft (min amount word.length) = word.shiftLeft amount := by
  rcases Nat.le_total amount word.length with hle | hge
  · rw [Nat.min_eq_left hle]
  · rw [Nat.min_eq_right hge, shiftLeft, shiftLeft,
      List.drop_of_length_le (Nat.le_refl _), List.drop_of_length_le hge,
      Nat.min_self, Nat.min_eq_right hge]

theorem shiftRight_min (word : Word) (amount : Nat) :
    word.shiftRight (min amount word.length) = word.shiftRight amount := by
  rcases Nat.le_total amount word.length with hle | hge
  · rw [Nat.min_eq_left hle]
  · rw [Nat.min_eq_right hge, shiftRight, shiftRight, Nat.min_self,
      Nat.min_eq_right hge, Nat.sub_self, Nat.sub_eq_zero_of_le hge]

theorem shift_neg (word : Word) (amount : Nat) :
    word.shift (-(amount : Int)) = word.shiftRight amount := by
  cases amount with
  | zero => simp [shift, shiftLeft, shiftRight]
  | succ amount => rfl

theorem getElem?_xorShifted (word : Word) (offset : Int) (index : Nat) :
    (word.xorShifted offset)[index]? =
      word[index]?.map (Bool.xor · (word.bitAt (index + offset))) := by
  by_cases hindex : index < word.length
  · simp [xorShifted, xor, getElem_shift, hindex]
  · simp [hindex]

end XorOrbit.Word
