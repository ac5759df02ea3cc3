import Mathlib.Data.List.TakeWhile
import XorOrbit.Layout.Regions
import XorOrbit.Proofs.Tape.Row

/-!
# The regions of a tape in order

What the readers of the regions find on a tape that consists of the regions.
While a run is going on, bits may be marked and the last entry may be
unfinished; `finished` and `unfinished` read such a log.
-/

namespace XorOrbit

/-! ## Symbols that are not markers -/

namespace Symbol

/-- Reading markers as bits does not turn anything else up or away. -/
theorem unmark_eq_iff {symbol other : Char} (hother : other ∉ bits ++ marks) :
    unmark symbol = other ↔ symbol = other := by
  simp only [bits, marks, List.cons_append, List.nil_append, List.mem_cons,
    List.not_mem_nil, or_false, not_or] at hother
  obtain ⟨hzero, hone, hmarkZero, hmarkOne⟩ := hother
  unfold unmark
  split
  · rename_i heq
    simp [heq, Ne.symm hzero, Ne.symm hmarkZero]
  · split
    · rename_i heq
      simp [heq, Ne.symm hone, Ne.symm hmarkOne]
    · rfl

theorem count_map_unmark {other : Char} (hother : other ∉ bits ++ marks)
    (cells : List Char) :
    (cells.map unmark).count other = cells.count other := by
  induction cells with
  | nil => rfl
  | cons symbol cells ih =>
      rw [List.map_cons, List.count_cons, List.count_cons, ih]
      simp [unmark_eq_iff hother]

end Symbol

theorem Word.notMem_cells {symbol : Char} (hsymbol : symbol ∉ Symbol.bits)
    (word : Word) : symbol ∉ word.cells :=
  fun hmem => hsymbol (word.cells_subset_bits hmem)

namespace Regions

/-- The symbol is not among the cells before its first occurrence. -/
theorem after?_append {symbol : Char} {left : List Char}
    (hleft : symbol ∉ left) (right : List Char) :
    after? symbol (left ++ symbol :: right) = some right := by
  rw [after?, List.dropWhile_append_of_pos]
  · simp
  · intro other hother
    simpa using ne_of_mem_of_not_mem hother hleft

theorem trimEnd_append (cells : List Char) (count : Nat) :
    trimEnd (cells ++ blanks count) = trimEnd cells := by
  rw [trimEnd, trimEnd, List.reverse_append, List.dropWhile_append_of_pos]
  intro symbol hsymbol
  rw [List.mem_reverse] at hsymbol
  simpa using List.eq_of_mem_replicate hsymbol

theorem trimEnd_append_blanks {cells : List Char}
    (hcells : Symbol.blank ∉ cells) (count : Nat) :
    trimEnd (cells ++ blanks count) = cells := by
  rw [trimEnd_append, trimEnd, List.dropWhile_eq_self_iff.mpr,
    List.reverse_reverse]
  intro hpos
  simp only [beq_iff_eq]
  intro hblank
  exact hcells (List.mem_reverse.mp (hblank ▸ List.getElem_mem hpos))

/-- Terminators take a log apart into its entries. -/
theorem splitOn_logCells (entries : List Word) (rest : List Char) :
    (logCells entries ++ rest).splitOn Symbol.entryEnd =
      entries.map Word.cells ++ rest.splitOn Symbol.entryEnd := by
  induction entries with
  | nil => rfl
  | cons entry entries ih =>
      have hentry : Symbol.entryEnd ∉ entry.cells :=
        entry.notMem_cells (by decide)
      rw [logCells_cons, List.append_assoc, List.cons_append,
        List.splitOn_append_cons_self_of_not_mem hentry, ih]
      rfl

/-- A log of finished entries only is read back. -/
theorem history_append {left : List Char} (hleft : Symbol.seedEnd ∉ left)
    {entries : List Word} (hentries : ∀ entry ∈ entries, entry ≠ [])
    (count : Nat) :
    history (left ++ Symbol.seedEnd :: (logCells entries ++ blanks count)) =
      entries.map Word.cells := by
  have hblank : Symbol.blank ∉ logCells entries := by
    have hsubset : logCells entries ⊆
        Symbol.bits ++ [Symbol.entryEnd] := by simp
    exact fun hmem => absurd (hsubset hmem) (by decide)
  have hsplit := splitOn_logCells entries []
  rw [List.append_nil, List.splitOn_nil] at hsplit
  rw [history, after?_append hleft]
  simp only [trimEnd_append_blanks hblank, hsplit, List.filter_append]
  rw [List.filter_eq_self.mpr]
  · simp
  · intro cells hcells
    obtain ⟨entry, hentry, rfl⟩ := List.mem_map.mp hcells
    simpa [Word.cells] using hentries entry hentry

/-! ## Logs with an unfinished entry -/

/-- The entries of the log that have been terminated, with markers read as
bits. -/
def finished (cells : List Char) : List (List Char) :=
  match after? Symbol.seedEnd (cells.map Symbol.unmark) with
  | none => []
  | some log => (log.splitOn Symbol.entryEnd).dropLast

/-- What follows the last terminator, or the seed end if there is none,
without the blanks at the end and with markers read as bits. -/
def unfinished (cells : List Char) : List Char :=
  match after? Symbol.seedEnd (cells.map Symbol.unmark) with
  | none => []
  | some log => trimEnd ((log.splitOn Symbol.entryEnd).getLastD [])

section Unfinished

variable {cells left opening : List Char} {entries : List Word}
  {count : Nat}
  (hcells : cells.map Symbol.unmark = left ++ Symbol.seedEnd ::
    (logCells entries ++ (opening ++ blanks count)))
  (hleft : Symbol.seedEnd ∉ left) (hopening : Symbol.entryEnd ∉ opening)
include hcells hleft hopening

theorem splitOn_unfinished :
    ∃ log, after? Symbol.seedEnd (cells.map Symbol.unmark) = some log ∧
      log.splitOn Symbol.entryEnd =
        entries.map Word.cells ++ [opening ++ blanks count] := by
  refine ⟨_, by rw [hcells, after?_append hleft], ?_⟩
  have hrest : Symbol.entryEnd ∉ opening ++ blanks count := by
    rw [List.mem_append, not_or]
    exact ⟨hopening, fun hmem =>
      absurd (List.eq_of_mem_replicate hmem) (by decide)⟩
  rw [splitOn_logCells, List.splitOn_eq_singleton hrest]

theorem finished_eq : finished cells = entries.map Word.cells := by
  obtain ⟨log, hlog, hsplit⟩ := splitOn_unfinished hcells hleft hopening
  simp [finished, hlog, hsplit]

theorem unfinished_eq (hblank : Symbol.blank ∉ opening) :
    unfinished cells = opening := by
  obtain ⟨log, hlog, hsplit⟩ := splitOn_unfinished hcells hleft hopening
  simp [unfinished, hlog, hsplit, trimEnd_append_blanks hblank]

end Unfinished

end Regions

end XorOrbit
