import XorOrbit.Fragment.Phrase
import XorOrbit.Program

/-!
# Programs that contain given rules

Running a phrase only needs that the program has its rules.  `Program.Follows`
says so for a list of rules, and the lemmas below take it apart along the
phrases from which subroutines are put together, down to single look-ups.
-/

namespace XorOrbit.Program

/-- The program applies each of the rules wherever it matches. -/
def Follows (program : Program) (rules : List Rule) : Prop :=
  ∀ rule ∈ rules,
    program.transition? rule.state rule.read = some rule.transition

/-- In the state, the head crosses the symbols without changing them. -/
def Passes (program : Program) (state : String) (symbols : List Char)
    (direction : Direction) : Prop :=
  ∀ symbol ∈ symbols,
    program.transition? state symbol = some ⟨state, symbol, direction⟩

variable {program : Program}

@[simp] theorem follows_nil : program.Follows [] := by
  simp [Follows]

@[simp] theorem follows_append {first second : List Rule} :
    program.Follows (first ++ second) ↔
      program.Follows first ∧ program.Follows second := by
  simp [Follows, or_imp, forall_and]

@[simp] theorem follows_cons {rule : Rule} {rules : List Rule} :
    program.Follows (rule :: rules) ↔
      program.transition? rule.state rule.read = some rule.transition ∧
        program.Follows rules := by
  simp [Follows]

theorem follows_flatMap {α : Type} {items : List α}
    {rules : α → List Rule} :
    program.Follows (items.flatMap rules) ↔
      ∀ item ∈ items, program.Follows (rules item) := by
  simp only [Follows, List.mem_flatMap]
  exact ⟨fun h item hitem rule hrule => h rule ⟨item, hitem, hrule⟩,
    fun h rule ⟨item, hitem, hrule⟩ => h item hitem rule hrule⟩

section Phrases

variable {state next : String} {symbols : List Char}
  {direction turn : Direction}

@[simp] theorem follows_cross :
    program.Follows (Phrase.cross state symbols direction next) ↔
      ∀ symbol ∈ symbols,
        program.transition? state symbol =
          some ⟨next, symbol, direction⟩ := by
  simp [Follows, Phrase.cross, Rule.transition]

@[simp] theorem follows_pass :
    program.Follows (Phrase.pass state symbols direction) ↔
      program.Passes state symbols direction := by
  simp [Phrase.pass, Passes]

@[simp] theorem follows_mark {next : Bool → String} :
    program.Follows (Phrase.mark state direction next) ↔
      ∀ bit, program.transition? state (Symbol.ofBit bit) =
        some ⟨next bit, Symbol.markOf bit, direction⟩ := by
  simp [Follows, Phrase.mark, Rule.transition]

@[simp] theorem follows_restore {value : Restore} :
    program.Follows (Phrase.restore state value direction next) ↔
      ∀ bit, program.transition? state (Symbol.markOf bit) =
        some ⟨next, Symbol.ofBit (value.value bit), direction⟩ := by
  simp [Follows, Phrase.restore, Rule.transition]

@[simp] theorem follows_findMark {value : Restore} :
    program.Follows
        (Phrase.findMark state symbols direction value turn next) ↔
      program.Passes state symbols direction ∧
        ∀ bit, program.transition? state (Symbol.markOf bit) =
          some ⟨next, Symbol.ofBit (value.value bit), turn⟩ := by
  simp [Phrase.findMark]

@[simp] theorem follows_travel {target : Char} :
    program.Follows
        (Phrase.travel state symbols direction target turn next) ↔
      program.Passes state symbols direction ∧
        program.transition? state target = some ⟨next, target, turn⟩ := by
  simp [Phrase.travel, Rule.transition]

end Phrases

end XorOrbit.Program
