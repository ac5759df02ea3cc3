import Mathlib.Algebra.Order.Ring.Nat
import Mathlib.Data.List.Basic
import Mathlib.Data.List.Induction
import Mathlib.Data.Nat.Bitwise
import Mathlib.Tactic.Ring
import XorOrbit.Word

/-!
# Words as numbers

The leftmost bit of a word is the most significant one of its number.  The
exclusive or of two words is that of their numbers, a shift to the left
multiplies by a power of two and drops what does not fit into the word, and a
shift to the right divides by a power of two.  None of this needs a bound on the
amount of the shift.
-/

namespace XorOrbit.Word

theorem toNat_concat (word : Word) (bit : Bool) :
    toNat (word ++ [bit]) = Nat.bit bit word.toNat := by
  rw [toNat, List.foldl_append, Nat.bit_val]
  rfl

theorem toNat_append (left right : Word) :
    toNat (left ++ right) =
      left.toNat * 2 ^ right.length + right.toNat := by
  induction right using List.reverseRecOn with
  | nil => simp [toNat]
  | append_singleton right bit ih =>
      rw [← List.append_assoc, toNat_concat, toNat_concat, ih, Nat.bit_val,
        Nat.bit_val, List.length_append, List.length_singleton, pow_succ]
      ring

@[simp] theorem toNat_replicate_false (length : Nat) :
    toNat (List.replicate length false) = 0 := by
  induction length with
  | zero => rfl
  | succ length ih =>
      rw [List.replicate_succ', toNat_concat, ih]
      rfl

theorem toNat_lt (word : Word) : word.toNat < 2 ^ word.length := by
  induction word using List.reverseRecOn with
  | nil => simp [toNat]
  | append_singleton word bit ih =>
      have hbit := bit.toNat_le
      rw [toNat_concat, Nat.bit_val, List.length_append,
        List.length_singleton, pow_succ]
      omega

/-- Words of one length are combined from their last bits on. -/
theorem toNat_xor {left right : Word}
    (hlength : left.length = right.length) :
    (left.xor right).toNat = left.toNat ^^^ right.toNat := by
  induction left using List.reverseRecOn generalizing right with
  | nil =>
      obtain rfl := List.eq_nil_of_length_eq_zero hlength.symm
      rfl
  | append_singleton left first ih =>
      rcases List.eq_nil_or_concat' right with rfl | ⟨right, second, rfl⟩
      · simp at hlength
      · have hlength' : left.length = right.length := by
          simpa using hlength
        have hxor : xor (left ++ [first]) (right ++ [second]) =
            xor left right ++ [Bool.xor first second] :=
          List.zipWith_append hlength'
        rw [hxor, toNat_concat, toNat_concat, toNat_concat, ih hlength',
          Nat.xor_bit]

theorem toNat_shiftLeft (word : Word) (amount : Nat) :
    (word.shiftLeft amount).toNat =
      word.toNat * 2 ^ amount % 2 ^ word.length := by
  rw [shiftLeft, toNat_append, toNat_replicate_false,
    List.length_replicate, Nat.add_zero]
  rcases Nat.le_total amount word.length with hle | hge
  · have hword : word.toNat * 2 ^ amount =
        2 ^ word.length * toNat (word.take amount) +
          toNat (word.drop amount) * 2 ^ amount := by
      conv_lhs => rw [← List.take_append_drop amount word, toNat_append,
        List.length_drop]
      rw [← Nat.sub_add_cancel hle, pow_add, Nat.sub_add_cancel hle]
      ring
    have hlt : toNat (word.drop amount) * 2 ^ amount < 2 ^ word.length := by
      have hdrop := toNat_lt (word.drop amount)
      rw [List.length_drop] at hdrop
      calc toNat (word.drop amount) * 2 ^ amount
          < 2 ^ (word.length - amount) * 2 ^ amount :=
            Nat.mul_lt_mul_of_pos_right hdrop (Nat.two_pow_pos amount)
        _ = 2 ^ word.length := by rw [← pow_add, Nat.sub_add_cancel hle]
    rw [Nat.min_eq_left hle, hword, Nat.mul_add_mod, Nat.mod_eq_of_lt hlt]
  · have hdvd : 2 ^ word.length ∣ word.toNat * 2 ^ amount :=
      Dvd.dvd.mul_left (pow_dvd_pow 2 hge) _
    rw [List.drop_of_length_le hge, Nat.mod_eq_zero_of_dvd hdvd]
    exact Nat.zero_mul _

theorem toNat_shiftRight (word : Word) (amount : Nat) :
    (word.shiftRight amount).toNat = word.toNat / 2 ^ amount := by
  rw [shiftRight, toNat_append, toNat_replicate_false, Nat.zero_mul,
    Nat.zero_add]
  rcases Nat.le_total amount word.length with hle | hge
  · have hlength : (word.drop (word.length - amount)).length = amount := by
      rw [List.length_drop]
      omega
    have hword : word.toNat =
        2 ^ amount * toNat (word.take (word.length - amount)) +
          toNat (word.drop (word.length - amount)) := by
      conv_lhs => rw [← List.take_append_drop (word.length - amount) word,
        toNat_append, hlength, Nat.mul_comm]
    have hlt : toNat (word.drop (word.length - amount)) < 2 ^ amount := by
      simpa only [hlength] using toNat_lt (word.drop (word.length - amount))
    rw [hword, Nat.mul_add_div (Nat.two_pow_pos amount),
      Nat.div_eq_of_lt hlt, Nat.add_zero]
  · have hlt : word.toNat < 2 ^ amount :=
      Nat.lt_of_lt_of_le word.toNat_lt
        (Nat.pow_le_pow_right (by decide) hge)
    rw [Nat.div_eq_of_lt hlt, Nat.sub_eq_zero_of_le hge, List.take_zero]
    rfl

/-! ## A word and its shifted copy -/

theorem toNat_xor_shiftLeft (word : Word) (amount : Nat) :
    (word.xor (word.shiftLeft amount)).toNat =
      word.toNat ^^^ (word.toNat * 2 ^ amount % 2 ^ word.length) := by
  rw [toNat_xor (length_shiftLeft word amount).symm, toNat_shiftLeft]

theorem toNat_xor_shiftRight (word : Word) (amount : Nat) :
    (word.xor (word.shiftRight amount)).toNat =
      word.toNat ^^^ (word.toNat / 2 ^ amount) := by
  rw [toNat_xor (length_shiftRight word amount).symm, toNat_shiftRight]

end XorOrbit.Word
