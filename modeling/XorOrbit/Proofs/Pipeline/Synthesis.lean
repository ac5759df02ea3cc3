import XorOrbit.Proofs.Generator
import XorOrbit.Proofs.Pipeline.Connected
import XorOrbit.Proofs.Run.Machine

/-!
# Synthesis fails only on bad seeds

The fragments of the pipeline can always be merged, and the program that they
give has no defect.  So a generator has a program exactly if its seed is a
non-empty word.
-/

namespace XorOrbit

open Synthesis

/-! ## The assembled program -/

namespace Synthesis

section Assembled

variable {generator : Generator} {layout : Layout} {fragment : Fragment}

/-- A rule of the program is for a state at one of the places. -/
theorem exists_place_of_rule {rule : Rule}
    (hrule : rule ∈ (pipelineRules generator layout).flatten) :
    ∃ place ∈ places, place.Has rule.state := by
  obtain ⟨hfits, -⟩ := pipeline_comprises generator layout
  exact Place.exists_has_of_mem_states
    ((Outline.Fits.flatten hfits).mem_states_iff.mpr ⟨rule, hrule, rfl⟩)

/-- The accepting state has no rules. -/
theorem state_ne_acceptState {rule : Rule}
    (hrule : rule ∈ (pipelineRules generator layout).flatten) :
    rule.state ≠ acceptState := by
  intro haccept
  obtain ⟨place, hplace, hhas⟩ := exists_place_of_rule hrule
  rw [haccept] at hhas
  have hstart := hhas.eq_start (by decide)
  have hother : ∀ place ∈ places, acceptState ≠ place.start := by decide
  exact hother place hplace hstart

theorem isAccepting_assemble (generator : Generator) (layout : Layout)
    (table : Table) (state : String) :
    (assemble generator layout table).isAccepting state = true ↔
      state = acceptState := by
  rw [Program.isAccepting, assemble, Std.ExtTreeSet.contains_iff_mem,
    Std.ExtTreeSet.mem_ofList]
  simp [eq_comm]

/-- The program applies all rules of the fragment. -/
theorem follows_assemble {rules : List Rule}
    (hrules : fragment.Comprises rules) :
    (assemble generator layout fragment.table).Follows rules :=
  fun rule hrule =>
    (hrules.transition_iff ..).mpr ⟨rule, hrule, rfl, rfl⟩

/-- The cells of the initial tape are blanks, bits, or the two separators. -/
theorem mem_initialCells
    (hlayout : generator.validate = .ok layout) {symbol : Char}
    (hsymbol : symbol ∈ layout.initialCells generator.seed
      generator.leftPadding generator.historyReserve) :
    symbol = Symbol.blank ∨ symbol ∈ Symbol.bits ++ [Symbol.seedStart] ∨
      symbol = Symbol.seedEnd := by
  have hbits := (Generator.validate_eq_ok_iff.mp hlayout).1.2
  simp only [Layout.initialCells, List.mem_append, List.mem_cons,
    List.mem_replicate] at hsymbol
  rcases hsymbol with (⟨-, rfl⟩ | rfl | hseed) | rfl | ⟨-, rfl⟩
  · exact Or.inl rfl
  · exact Or.inr (Or.inl (by simp))
  · exact Or.inr (Or.inl (List.mem_append_left _ (hbits symbol hseed)))
  · exact Or.inr (Or.inr rfl)
  · exact Or.inl rfl

/-- The fragments of the subroutines have been merged to a table in which
nothing clashes, nothing is missing and nothing is superfluous. -/
structure Sound (generator : Generator) (layout : Layout) (table : Table) :
    Prop where
  /-- No fragment has a conflict, and none defines a state of another. -/
  pipeline_eq : pipeline generator layout = .ok ⟨table, none⟩
  /-- The table has the rules of the subroutines and no others. -/
  mem_rules_iff : ∀ rule,
    rule ∈ table.rules ↔ rule ∈ (pipelineRules generator layout).flatten
  /-- No state is given two rules for a symbol. -/
  nodup_keys : ((pipelineRules generator layout).flatten.map Rule.key).Nodup
  /-- The rules of each subroutine are for the states of its labels. -/
  fits : List.Forall₂ Outline.Fits (pipelineOutlines generator layout)
    (pipelineRules generator layout)
  /-- No two labels of the subroutines give the same state. -/
  nodup_states :
    (Outline.states (pipelineOutlines generator layout).flatten).Nodup
  /-- Every rule leads to a state that is defined or accepting. -/
  isKnown_next : ∀ rule ∈ table.rules,
    (assemble generator layout table).isKnown rule.next = true
  /-- Every defined state can be reached. -/
  reaches : ∀ state ∈ table, table.Reaches startState state

theorem exists_sound (generator : Generator) (layout : Layout) :
    ∃ table, Sound generator layout table := by
  obtain ⟨hfits, fragment, hpipeline, hrules⟩ :=
    pipeline_comprises generator layout
  have hnodup := nodup_pipelineStates generator layout
  have haccept : (assemble generator layout fragment.table).isKnown
      acceptState = true := by
    rw [Program.isKnown, Bool.or_eq_true]
    exact Or.inr ((isAccepting_assemble _ _ _ _).mpr rfl)
  have hconnects := pipeline_connects (follows_assemble hrules) haccept
  have hmem : ∀ rule, rule ∈ fragment.table.rules ↔
      rule ∈ (pipelineRules generator layout).flatten := by
    intro rule
    rw [Table.mem_rules, hrules.transition_iff]
    constructor
    · rintro ⟨other, hother, hkey, htransition⟩
      obtain rfl : other = rule := Rule.ext_key hkey htransition
      exact hother
    · intro hrule
      exact ⟨rule, hrule, rfl, rfl⟩
  refine ⟨fragment.table, ?_, hmem,
    (Outline.Fits.flatten hfits).nodup_keys hnodup, hfits, hnodup, ?_, ?_⟩
  · rw [hpipeline, ← hrules.conflict_eq]
  · intro rule hrule
    exact (hconnects rule ((hmem rule).mp hrule)).2.isKnown
  · intro state hstate
    obtain ⟨rule, hrule, rfl⟩ := (hrules.mem_iff state).mp hstate
    exact (hconnects rule hrule).1.reaches

namespace Sound

variable {table : Table} (hsound : Sound generator layout table)
include hsound

/-- The program applies all rules of the subroutines. -/
theorem follows : (assemble generator layout table).Follows
    (pipelineRules generator layout).flatten :=
  fun rule hrule =>
    Table.mem_rules.mp ((hsound.mem_rules_iff rule).mpr hrule)

/-- A rule that the program applies is one of a subroutine. -/
theorem exists_rule {state : String} {symbol : Char}
    {transition : Transition}
    (htransition : (assemble generator layout table).transition? state
      symbol = some transition) :
    ⟨state, symbol, transition.write, transition.direction,
        transition.nextState⟩ ∈
      (pipelineRules generator layout).flatten :=
  (hsound.mem_rules_iff _).mp (Table.mem_rules.mpr htransition)

/-- No rule applies in the accepting state. -/
theorem transition?_acceptState (symbol : Char) :
    (assemble generator layout table).transition? acceptState symbol =
      none := by
  rw [Option.eq_none_iff_forall_ne_some]
  intro transition htransition
  exact state_ne_acceptState (hsound.exists_rule htransition) rfl

/-- A configuration that has a next one does not accept. -/
theorem isAccepting_of_next {current following : Configuration}
    (hnext : current.Next (assemble generator layout table) following) :
    (assemble generator layout table).isAccepting current.state = false := by
  rw [Bool.eq_false_iff, Ne, isAccepting_assemble]
  intro hstate
  obtain ⟨transition, htransition, -⟩ := hnext
  rw [Configuration.transition?, hstate,
    hsound.transition?_acceptState] at htransition
  simp at htransition

/-- The assembled program is well-formed. -/
theorem defect?_eq_none (hlayout : generator.validate = .ok layout) :
    (assemble generator layout table).defect? = none := by
  have hfollows := hsound.follows
  simp only [pipelineRules, List.flatten_append, List.flatten_cons,
    Program.follows_append, startRules, Program.follows_pass,
    Program.follows_cons, and_assoc] at hfollows
  obtain ⟨hpass, hturn, -, -, hcopy, -⟩ := hfollows
  have hend := (copies_of_follows hcopy).turn
  rw [Program.defect?_eq_none_iff]
  refine ⟨?_, ?_, ?_, Program.isKnown_of_transition? hturn, ?_,
    hsound.reaches, ?_⟩
  · simp [assemble, Layout.initialCells]
  · intro state hstate symbol
    rw [(isAccepting_assemble _ _ _ _).mp hstate]
    exact hsound.transition?_acceptState symbol
  · simp only [assemble, Layout.initialHead, Layout.initialCells,
      List.length_append, List.length_replicate, List.length_cons]
    omega
  · intro state symbol transition htransition
    have hrule := (hsound.mem_rules_iff _).mpr (hsound.exists_rule htransition)
    exact hsound.isKnown_next _ hrule
  · intro symbol hsymbol
    rcases mem_initialCells hlayout hsymbol with hblank | hcell | rfl
    · exact Or.inl hblank
    · refine Or.inr ⟨startState, ?_⟩
      rcases List.mem_append.mp hcell with hbit | hcell
      · exact ⟨_, hpass symbol hbit⟩
      · rw [List.mem_singleton.mp hcell]
        exact ⟨_, hturn⟩
    · exact Or.inr ⟨_, _, hend⟩

/-- The assembled program is the one that is synthesized. -/
theorem synthesize_eq (hlayout : generator.validate = .ok layout) :
    generator.synthesize = .ok (assemble generator layout table) := by
  rw [Generator.synthesize, hlayout]
  simp only [bind, Except.bind, hsound.pipeline_eq,
    hsound.defect?_eq_none hlayout]
  rfl

end Sound

end Assembled

end Synthesis

/-- Synthesis fails exactly on the seeds that validation rejects, and with the
same error.  Whatever the word length and the shifts are, the rules of the
subroutines fit together. -/
theorem Generator.synthesize_fails_only_on_bad_seed (generator : Generator) :
    ((∃ program, generator.synthesize = .ok program) ↔
        generator.HasWord) ∧
      (∀ error, generator.synthesize = .error error ↔
        generator.validate = .error error) ∧
      (∀ error, generator.synthesize = .error error →
        ∃ fault, error = .invalidGenerator fault) ∧
      ∀ layout : Layout, ∃ table, Sound generator layout table ∧
        (generator.validate = .ok layout →
          generator.synthesize = .ok (assemble generator layout table)) := by
  have herror : ∀ error, generator.synthesize = .error error ↔
      generator.validate = .error error := by
    intro error
    cases hvalidate : generator.validate with
    | error fault => simp [synthesize, hvalidate, bind, Except.bind]
    | ok layout =>
        obtain ⟨table, hsound⟩ := exists_sound generator layout
        simp [hsound.synthesize_eq hvalidate]
  refine ⟨⟨?_, ?_⟩, herror, ?_, ?_⟩
  · rintro ⟨program, hprogram⟩
    cases hvalidate : generator.validate with
    | error fault =>
        rw [(herror fault).mpr hvalidate] at hprogram
        simp at hprogram
    | ok layout => exact (validate_eq_ok_iff.mp hvalidate).1
  · intro hword
    obtain ⟨layout, hlayout, -⟩ := hword.exists_layout
    obtain ⟨table, hsound⟩ := exists_sound generator layout
    exact ⟨_, hsound.synthesize_eq hlayout⟩
  · intro error hsynthesize
    exact validate_error ((herror error).mp hsynthesize)
  · intro layout
    obtain ⟨table, hsound⟩ := exists_sound generator layout
    exact ⟨table, hsound, hsound.synthesize_eq⟩

end XorOrbit
