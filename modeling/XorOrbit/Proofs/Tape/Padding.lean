import XorOrbit.Proofs.Tape.Cells

/-!
# Tapes that read the same

How many of its blanks a tape has materialized cannot be told from its head.
Two tapes are alike if they read the same at every distance from their heads;
the operations of a machine keep tapes alike, although one tape may grow where
the other one finds a blank, and the cells of alike tapes are the same up to
blanks at both ends.
-/

namespace XorOrbit.Tape

/-- The symbol at a signed distance from the head. -/
def around (tape : Tape) (distance : Int) : Char :=
  tape.symbolAt (tape.head + distance)

section Around

variable (tape : Tape)

theorem around_zero : tape.around 0 = tape.read := by
  rw [around, Int.add_zero, read_eq_symbolAt]

theorem around_write (symbol : Char) :
    (tape.write symbol).around = Function.update tape.around 0 symbol := by
  funext distance
  simp only [around, head_write, symbolAt_write, Function.update_apply]
  exact if_congr (by omega) rfl rfl

/-- A move of the head changes all distances by one. -/
theorem around_shift (direction : Direction) (distance : Int) :
    (tape.shift direction).around distance =
      tape.around (distance + direction.offset) := by
  cases direction with
  | left =>
      rw [around, symbolAt_shift_left, head_shift_left, around,
        Direction.offset]
      exact congrArg _ (by omega)
  | right =>
      rw [around, symbolAt_shift_right, head_shift_right, around,
        Direction.offset]
      exact congrArg _ (by omega)
  | stay => exact congrArg _ (Int.add_zero _).symm

end Around

/-- The tapes read the same at every distance from their heads. -/
structure Alike (first second : Tape) : Prop where
  blank_eq : first.blank = second.blank
  around_eq : ∀ distance, first.around distance = second.around distance

namespace Alike

variable {first second third : Tape}

theorem symm (halike : Alike first second) : Alike second first :=
  ⟨halike.blank_eq.symm, fun distance => (halike.around_eq distance).symm⟩

theorem trans (hfirst : Alike first second) (hsecond : Alike second third) :
    Alike first third :=
  ⟨hfirst.blank_eq.trans hsecond.blank_eq, fun distance =>
    (hfirst.around_eq distance).trans (hsecond.around_eq distance)⟩

/-- Blanks around the cells of a fresh tape make no difference. -/
theorem pad (cells : List Char) (head : Nat) (blank : Char)
    (left right : Nat) :
    Alike (ofCells cells head blank)
      (ofCells
        (List.replicate left blank ++ cells ++ List.replicate right blank)
        (head + left) blank) := by
  constructor
  · rfl
  · intro distance
    rw [around, around, symbolAt_ofCells, symbolAt_ofCells, head_ofCells,
      head_ofCells, cellAt_append_replicate, cellAt_replicate_append]
    exact congrArg _ (by omega)

variable (halike : Alike first second)
include halike

theorem read_eq : first.read = second.read := by
  rw [← around_zero, halike.around_eq, around_zero]

theorem write (symbol : Char) :
    Alike (first.write symbol) (second.write symbol) := by
  constructor
  · exact halike.blank_eq
  · intro distance
    rw [around_write, around_write, funext halike.around_eq]

theorem shift (direction : Direction) :
    Alike (first.shift direction) (second.shift direction) := by
  constructor
  · rw [blank_shift, blank_shift, halike.blank_eq]
  · intro distance
    rw [around_shift, around_shift, halike.around_eq]

/-- Once blanks have put the heads on the same index, the cells of both tapes
are the same with blanks added at the end. -/
theorem exists_pad_eq_pad :
    ∃ right right' : Nat,
      List.replicate second.head first.blank ++ first.cells ++
          List.replicate right first.blank =
        List.replicate first.head first.blank ++ second.cells ++
          List.replicate right' first.blank := by
  refine ⟨_, _, append_replicate_eq ?_⟩
  funext position
  rw [cellAt_replicate_append, cellAt_replicate_append]
  have haround :=
    halike.around_eq (position - second.head - first.head)
  simp only [around, symbolAt, ← halike.blank_eq] at haround
  rw [show (first.head : Int) + (position - second.head - first.head) =
      position - second.head by omega] at haround
  rw [haround]
  exact congrArg _ (by omega)

end Alike

end XorOrbit.Tape
