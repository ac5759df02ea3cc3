import XorOrbit.Proofs.Layout.Regions
import XorOrbit.Proofs.Tape.Padding

/-!
# Regions between blanks

Blanks at the ends of a tape are not part of any region, so alike tapes have
the same seed, scratch word and log.
-/

namespace XorOrbit

theorem notMem_blanks {symbol : Char} (hsymbol : symbol ≠ Symbol.blank)
    (count : Nat) : symbol ∉ blanks count := by
  intro hmem
  exact hsymbol (List.eq_of_mem_replicate hmem)

namespace Regions

section Symbol

variable {symbol : Char} {cells left : List Char}

theorem after?_eq_none (hcells : symbol ∉ cells) :
    after? symbol cells = none := by
  rw [after?, List.dropWhile_eq_nil_iff.mpr]
  intro other hother
  simpa using ne_of_mem_of_not_mem hother hcells

theorem before?_eq_none (hcells : symbol ∉ cells) :
    before? symbol cells = none := by
  rw [before?, if_neg]
  simpa using hcells

theorem before?_append (hleft : symbol ∉ left) (right : List Char) :
    before? symbol (left ++ symbol :: right) = some left := by
  rw [before?, if_pos (by simp), List.takeWhile_append_of_pos]
  · simp
  · intro other hother
    simpa using ne_of_mem_of_not_mem hother hleft

end Symbol

section Pad

variable {symbol : Char} (hsymbol : symbol ≠ Symbol.blank)
  (cells : List Char) (left right : Nat)
include hsymbol

theorem notMem_pad (hcells : symbol ∉ cells) :
    symbol ∉ blanks left ++ cells ++ blanks right := by
  simp only [List.mem_append, not_or]
  exact ⟨⟨notMem_blanks hsymbol left, hcells⟩, notMem_blanks hsymbol right⟩

theorem after?_pad :
    after? symbol (blanks left ++ cells ++ blanks right) =
      (after? symbol cells).map (· ++ blanks right) := by
  by_cases hmem : symbol ∈ cells
  · obtain ⟨first, rest, rfl, hfirst⟩ := List.eq_append_cons_of_mem hmem
    have hleft : symbol ∉ blanks left ++ first := by
      simp only [List.mem_append, not_or]
      exact ⟨notMem_blanks hsymbol left, hfirst⟩
    have hpad := after?_append hleft (rest ++ blanks right)
    simpa [after?_append hfirst] using hpad
  · rw [after?_eq_none hmem,
      after?_eq_none (notMem_pad hsymbol cells left right hmem)]
    rfl

theorem before?_pad :
    before? symbol (blanks left ++ cells ++ blanks right) =
      (before? symbol cells).map (blanks left ++ ·) := by
  by_cases hmem : symbol ∈ cells
  · obtain ⟨first, rest, rfl, hfirst⟩ := List.eq_append_cons_of_mem hmem
    have hleft : symbol ∉ blanks left ++ first := by
      simp only [List.mem_append, not_or]
      exact ⟨notMem_blanks hsymbol left, hfirst⟩
    have hpad := before?_append hleft (rest ++ blanks right)
    simpa [before?_append hfirst] using hpad
  · rw [before?_eq_none hmem,
      before?_eq_none (notMem_pad hsymbol cells left right hmem)]
    rfl

end Pad

section Readers

variable (cells : List Char) (left right : Nat)

theorem seed?_pad :
    seed? (blanks left ++ cells ++ blanks right) = seed? cells := by
  have hend (log : List Char) :
      before? Symbol.seedEnd (log ++ blanks right) =
        before? Symbol.seedEnd log := by
    have hsymbol : Symbol.seedEnd ≠ Symbol.blank := by decide
    simpa using before?_pad hsymbol log 0 right
  rw [seed?, seed?, after?_pad (by decide)]
  cases after? Symbol.seedStart cells with
  | none => rfl
  | some log => exact hend log

/-- The blanks on the left of a row end the scratch word no later than the end
of the row does. -/
theorem takeWhile_append_blanks (row : List Char) (count : Nat) :
    (row ++ blanks count).takeWhile (· != Symbol.blank) =
      row.takeWhile (· != Symbol.blank) := by
  have hblanks : (blanks count).takeWhile (· != Symbol.blank) = [] := by
    cases count with
    | zero => rfl
    | succ count => rfl
  rw [List.takeWhile_append, hblanks, List.append_nil]
  split
  · rename_i hlength
    exact ((List.takeWhile_prefix _).eq_of_length hlength).symm
  · rfl

theorem scratch?_pad :
    scratch? (blanks left ++ cells ++ blanks right) = scratch? cells := by
  rw [scratch?, scratch?, before?_pad (by decide)]
  cases before? Symbol.seedStart cells with
  | none => rfl
  | some region =>
      have hreverse : (blanks left).reverse = blanks left :=
        List.reverse_replicate ..
      simp [hreverse, takeWhile_append_blanks]

theorem history_pad :
    history (blanks left ++ cells ++ blanks right) = history cells := by
  rw [history, history, after?_pad (by decide)]
  cases after? Symbol.seedEnd cells with
  | none => rfl
  | some log => simp [trimEnd_append]

end Readers

end Regions

namespace Tape.Alike

open Regions

variable {first second : Tape} (halike : Alike first second)
  (hblank : first.blank = Symbol.blank)
include halike hblank

/-- What does not depend on blanks at the ends of the cells is the same on
alike tapes. -/
theorem congr_cells {α : Type} {reader : List Char → α}
    (hreader : ∀ cells left right,
      reader (blanks left ++ cells ++ blanks right) = reader cells) :
    reader first.cells = reader second.cells := by
  obtain ⟨right, right', hpad⟩ := halike.exists_pad_eq_pad
  rw [hblank] at hpad
  rw [← hreader first.cells second.head right, blanks, blanks, hpad]
  exact hreader second.cells first.head right'

theorem seed?_eq : seed? first.cells = seed? second.cells :=
  halike.congr_cells hblank seed?_pad

theorem scratch?_eq : scratch? first.cells = scratch? second.cells :=
  halike.congr_cells hblank scratch?_pad

theorem history_eq : history first.cells = history second.cells :=
  halike.congr_cells hblank history_pad

end Tape.Alike

end XorOrbit
