import XorOrbit.Fragment.Phrase
import XorOrbit.Proofs.Run.Machine

/-!
# Rules that leave separators in place

Rules may cross a separator but not overwrite it.  A step by such a rule never
makes the number of separators smaller.
-/

namespace XorOrbit

/-- The symbols that divide a tape into regions and entries. -/
def Symbol.separators : List Char := [seedStart, seedEnd, entryEnd]

namespace Symbol

@[simp] theorem blank_notMem_separators : blank ∉ separators := by
  decide

@[simp] theorem openEntryEnd_notMem_separators :
    openEntryEnd ∉ separators := by
  decide

@[simp] theorem ofBit_notMem_separators (bit : Bool) :
    ofBit bit ∉ separators := by
  cases bit <;> decide

@[simp] theorem markOf_notMem_separators (bit : Bool) :
    markOf bit ∉ separators := by
  cases bit <;> decide

end Symbol

/-- No rule overwrites a separator by something else. -/
def Preserving (rules : List Rule) : Prop :=
  ∀ rule ∈ rules, rule.read ∈ Symbol.separators → rule.write = rule.read

section Phrases

variable {state next : String} {symbols : List Char}
  {direction turn : Direction} {value : Restore}

@[simp] theorem preserving_nil : Preserving [] := by
  simp [Preserving]

@[simp] theorem preserving_append {first second : List Rule} :
    Preserving (first ++ second) ↔ Preserving first ∧ Preserving second :=
  List.forall_mem_append

@[simp] theorem preserving_cons {rule : Rule} {rules : List Rule} :
    Preserving (rule :: rules) ↔
      (rule.read ∈ Symbol.separators → rule.write = rule.read) ∧
        Preserving rules :=
  List.forall_mem_cons

@[simp] theorem preserving_map {α : Type} {items : List α}
    {rule : α → Rule} :
    Preserving (items.map rule) ↔ ∀ item ∈ items,
      (rule item).read ∈ Symbol.separators →
        (rule item).write = (rule item).read :=
  List.forall_mem_map

theorem preserving_flatMap {α : Type} {items : List α}
    {rules : α → List Rule} :
    Preserving (items.flatMap rules) ↔
      ∀ item ∈ items, Preserving (rules item) :=
  List.forall_mem_flatMap

@[simp] theorem preserving_cross :
    Preserving (Phrase.cross state symbols direction next) := by
  simp [Phrase.cross]

@[simp] theorem preserving_pass :
    Preserving (Phrase.pass state symbols direction) := by
  simp [Phrase.pass]

@[simp] theorem preserving_mark {next : Bool → String} :
    Preserving (Phrase.mark state direction next) := by
  simp [Phrase.mark]

@[simp] theorem preserving_restore :
    Preserving (Phrase.restore state value direction next) := by
  simp [Phrase.restore]

@[simp] theorem preserving_findMark :
    Preserving
      (Phrase.findMark state symbols direction value turn next) := by
  simp [Phrase.findMark]

@[simp] theorem preserving_travel {target : Char} :
    Preserving
      (Phrase.travel state symbols direction target turn next) := by
  simp [Phrase.travel]

end Phrases

/-! ## Steps -/

section Steps

variable {symbol : Char}

/-- A move of the head can only add a blank. -/
theorem Tape.count_shift (tape : Tape) (direction : Direction) :
    tape.cells.count symbol ≤ (tape.shift direction).cells.count symbol := by
  cases direction with
  | left =>
      cases hbefore : tape.before with
      | nil => simp [Tape.shift, Tape.cells, hbefore, List.count_cons]
      | cons cell before => simp [Tape.shift, Tape.cells, hbefore]
  | right =>
      cases hafter : tape.after with
      | nil => simp [Tape.shift, Tape.cells, hafter, List.count_cons]
      | cons cell after => simp [Tape.shift, Tape.cells, hafter]
  | stay => exact Nat.le_refl _

theorem Tape.count_write {tape : Tape} {written : Char}
    (hwritten : tape.read = symbol → written = symbol) :
    tape.cells.count symbol ≤ (tape.write written).cells.count symbol := by
  simp only [Tape.cells, Tape.write, List.count_append, List.count_cons]
  by_cases hread : tape.focus = symbol
  · simp [hread, hwritten hread]
  · simp [hread]

/-- A step that does not overwrite the symbol does not make its occurrences
fewer. -/
theorem Configuration.count_apply {current : Configuration}
    {transition : Transition}
    (hwritten : current.tape.read = symbol → transition.write = symbol) :
    current.tape.cells.count symbol ≤
      (current.apply transition).tape.cells.count symbol :=
  Nat.le_trans (Tape.count_write hwritten) (Tape.count_shift _ _)

end Steps

end XorOrbit
