import XorOrbit.Proofs.Layout.Regions
import XorOrbit.Proofs.Pipeline.Trace

/-!
# The program computes the sequence of its generator

A machine on the program of a generator accepts with exactly the reference
sequence in its log, and whenever it is between two subroutines the words on
its tape are the ones that the arithmetic of the generator gives.
-/

namespace XorOrbit

namespace Synthesis

section Run

variable {generator : Generator} {layout : Layout} {table : Table}
  {last : Nat}

theorem cells_onSeedStart (state : String) (scratch seed : Word)
    (entries : List Word) (padding reserve : Nat) :
    (onSeedStart state scratch seed entries padding reserve).tape.cells =
      tapeCells scratch seed entries padding reserve := by
  simp [onSeedStart, tapeCells, Tape.cells_rightOf_cons]

/-- Nothing is marked and no entry is open. -/
theorem notMem_tapeCells (scratch seed : Word) (entries : List Word)
    (padding reserve : Nat) :
    ∀ symbol ∈ Symbol.openEntryEnd :: Symbol.marks,
      symbol ∉ tapeCells scratch seed entries padding reserve := by
  have hcells : tapeCells scratch seed entries padding reserve ⊆
      Symbol.blank :: Symbol.bits ++
        [Symbol.seedStart, Symbol.seedEnd, Symbol.entryEnd] := by
    simp [tapeCells, List.append_subset]
  simp only [Symbol.marks, List.forall_mem_cons, List.not_mem_nil,
    false_imp_iff, implies_true, and_true]
  exact ⟨fun hmem => absurd (hcells hmem) (by decide),
    fun hmem => absurd (hcells hmem) (by decide),
    fun hmem => absurd (hcells hmem) (by decide)⟩

theorem history_tapeCells (scratch seed : Word) {entries : List Word}
    (hentries : ∀ entry ∈ entries, entry ≠ []) (padding reserve : Nat) :
    Regions.history (tapeCells scratch seed entries padding reserve) =
      entries.map Word.cells := by
  have hleft : blanks padding ++ scratch.cells ++ Symbol.seedStart ::
      seed.cells ⊆ Symbol.blank :: Symbol.bits ++ [Symbol.seedStart] := by
    simp [List.append_subset]
  exact Regions.history_append
    (fun hmem => absurd (hleft hmem) (by decide)) hentries reserve

variable (hlayout : generator.validate = .ok layout)
  (hsound : Sound generator layout table)
  (hlast : generator.FirstRepeat last)
include hlayout hlast

/-- What holds during the run also holds at its end. -/
theorem running_end (padding reserve : Nat) :
    Running generator layout (generator.seeds (last + 1)) acceptState
      (tapeCells (generator.seedAt last) (generator.seedAt last)
        (generator.seeds (last + 1)) padding reserve) := by
  obtain ⟨index, rfl⟩ := Nat.exists_eq_add_of_le hlast.pos
  rw [Nat.add_comm 1 index] at hlast ⊢
  exact running_between hlast.nodup (.found hlast.mem)
    (Generator.length_seedAt hlayout (index + 1)) (List.prefix_refl _)
    padding reserve

include hsound

/-- What holds during the run holds after any number of steps. -/
theorem running_after (steps : Nat) :
    Running generator layout (generator.seeds (last + 1))
      ((Machine.new (assemble generator layout table)).after steps).state
      ((Machine.new
        (assemble generator layout table)).after steps).tape.cells := by
  have hleads := Machine.leads_after
    (Machine.new (assemble generator layout table)) steps
  rcases (pipeline_running hlayout hsound hlast).via_or_eq
      (hsound.transition?_acceptState _) hleads with hvia | hend
  · exact hvia
  · rw [Machine.state, Machine.tape, hend, cells_onSeedStart]
    exact running_end hlayout hlast _ _

/-- Bounded runs accept at the end of the run once the bound allows it, and
before that they are only cut off. -/
theorem exists_run_eq_end :
    ∃ count,
      (∀ bound < count, ((Machine.new
        (assemble generator layout table)).run bound).1 = .exhausted) ∧
      ∀ bound, count ≤ bound →
        ((Machine.new (assemble generator layout table)).run bound).1 =
          .accepted ∧
        ((Machine.new
          (assemble generator layout table)).run bound).2.current =
            onSeedStart acceptState (generator.seedAt last)
              (generator.seedAt last) (generator.seeds (last + 1))
              (max generator.leftPadding 1)
              (generator.historyReserve -
                (last + 1) * (layout.wordLength + 1)) := by
  obtain ⟨count, hcount⟩ := Machine.run_of_trace
    (pipeline_running hlayout hsound hlast)
    ((isAccepting_assemble _ _ _ _).mpr rfl)
    (fun _ _ hnext => hsound.isAccepting_of_next hnext)
  exact ⟨count, hcount (Machine.new _) rfl rfl⟩

end Run

end Synthesis

open Synthesis

namespace Generator

/-- The machine gets to the accepting state. -/
theorem exists_after_acceptState (generator : Generator)
    (hword : generator.HasWord) {program : Program}
    (hprogram : generator.synthesize = .ok program) :
    ∃ steps, ((Machine.new program).after steps).state = acceptState := by
  obtain ⟨layout, hlayout, -⟩ := hword.exists_layout
  obtain ⟨table, hsound⟩ := exists_sound generator layout
  obtain ⟨last, hlast, -⟩ := exists_reference_eq hlayout
  obtain rfl :=
    Except.ok.inj ((hsound.synthesize_eq hlayout).symm.trans hprogram)
  obtain ⟨count, -, haccepted⟩ := exists_run_eq_end hlayout hsound hlast
  have hcurrent := (haccepted count (Nat.le_refl count)).2
  rw [Machine.run_eq_after] at hcurrent
  exact ⟨_, congrArg Configuration.state hcurrent⟩

/-- The machine accepts once the bound is large enough, and never halts
otherwise.  It then stands on the seed start of a tape with the reference
sequence in its log and the last seed as the seed and in the scratch word. -/
theorem run_synthesize (generator : Generator) (hword : generator.HasWord) :
    ∃ (program : Program) (words : List Word) (final : Word) (count : Nat),
      generator.synthesize = .ok program ∧
      generator.reference = .ok words ∧
      words.getLast? = some final ∧
      (∀ bound < count,
        ((Machine.new program).run bound).1 = .exhausted) ∧
      ∀ bound, count ≤ bound →
        ((Machine.new program).run bound).1 = .accepted ∧
        ((Machine.new program).run bound).2.state = acceptState ∧
        ((Machine.new program).run bound).2.symbol = Symbol.seedStart ∧
        ((Machine.new program).run bound).2.tape.cells =
          tapeCells final final words (max generator.leftPadding 1)
            (generator.historyReserve -
              words.length * (generator.wordLength + 1)) ∧
        Regions.history ((Machine.new program).run bound).2.tape.cells =
          words.map Word.cells := by
  obtain ⟨layout, hlayout, hlength⟩ := hword.exists_layout
  obtain ⟨table, hsound⟩ := exists_sound generator layout
  obtain ⟨last, hlast, hreference⟩ := exists_reference_eq hlayout
  obtain ⟨count, hexhausted, haccepted⟩ :=
    exists_run_eq_end hlayout hsound hlast
  refine ⟨_, _, generator.seedAt last, count, hsound.synthesize_eq hlayout,
    hreference, ?_, hexhausted, ?_⟩
  · rw [generator.seeds_succ, List.getLast?_concat]
  · intro bound hbound
    obtain ⟨houtcome, hcurrent⟩ := haccepted bound hbound
    have hcells : ((Machine.new (assemble generator layout table)).run
        bound).2.tape.cells = tapeCells (generator.seedAt last)
          (generator.seedAt last) (generator.seeds (last + 1))
          (max generator.leftPadding 1) (generator.historyReserve -
            (last + 1) * (layout.wordLength + 1)) := by
      rw [Machine.tape, hcurrent, cells_onSeedStart]
    refine ⟨houtcome, ?_, ?_, ?_, ?_⟩
    · rw [Machine.state, hcurrent]
      rfl
    · rw [Machine.symbol, Machine.tape, hcurrent]
      rfl
    · rw [hcells, generator.length_seeds, ← hlength]
    · rw [hcells]
      apply history_tapeCells
      intro entry hentry hnil
      have hentry' := length_of_mem_seeds hlayout hentry
      have hpos := layout.wordLength_pos
      rw [hnil, List.length_nil] at hentry'
      omega

/-- A seed of two bits comes back after two rounds. -/
theorem run_synthesize_two_bits :
    (new "10" 1 1 1).HasWord ∧
      ∃ program count, (new "10" 1 1 1).synthesize = .ok program ∧
        ∀ bound, count ≤ bound →
          ((Machine.new program).run bound).1 = .accepted ∧
          Regions.history ((Machine.new program).run bound).2.tape.cells =
            [['1', '0'], ['0', '1'], ['1', '0']] := by
  have hword : (new "10" 1 1 1).HasWord := by decide
  obtain ⟨program, words, final, count, hprogram, hreference, -, -,
    haccepted⟩ := run_synthesize _ hword
  have hwords : (new "10" 1 1 1).reference =
      .ok [[true, false], [false, true], [true, false]] := by
    decide
  obtain rfl := Except.ok.inj (hwords.symm.trans hreference)
  refine ⟨hword, program, count, hprogram, ?_⟩
  intro bound hbound
  obtain ⟨houtcome, -, -, -, hhistory⟩ := haccepted bound hbound
  exact ⟨houtcome, hhistory⟩

/-- Whenever the machine is between two subroutines, the words on its tape are
the ones that the shifts give for the current seed, and nothing is marked. -/
theorem words_between_subroutines (generator : Generator)
    (hword : generator.HasWord) :
    ∃ program, generator.synthesize = .ok program ∧
      ∀ steps, '.' ∉ ((Machine.new program).after steps).state.toList →
        ∃ index scratch seed entries padding reserve,
          Between generator index ((Machine.new program).after steps).state
            scratch seed entries ∧
          (generator.seeds (index + 1)).Nodup ∧
          seed.length = generator.wordLength ∧
          (∀ entry ∈ entries, entry.length = generator.wordLength) ∧
          ((Machine.new program).after steps).tape.cells =
            tapeCells scratch seed entries padding reserve ∧
          ∀ symbol ∈ Symbol.openEntryEnd :: Symbol.marks,
            symbol ∉ ((Machine.new program).after steps).tape.cells := by
  obtain ⟨layout, hlayout, hlength⟩ := hword.exists_layout
  obtain ⟨table, hsound⟩ := exists_sound generator layout
  obtain ⟨last, hlast, -⟩ := exists_reference_eq hlayout
  refine ⟨_, hsound.synthesize_eq hlayout, ?_⟩
  intro steps hplain
  obtain ⟨index, scratch, seed, entries, padding, reserve, hnodup, hbetween,
    hcells⟩ := (running_after hlayout hsound hlast steps).between hplain
  obtain ⟨hseed, hentries⟩ := hbetween.length_eq hlayout
  rw [hlength] at hseed hentries
  refine ⟨index, scratch, seed, entries, padding, reserve, hbetween, hnodup,
    hseed, hentries, hcells, ?_⟩
  rw [hcells]
  exact notMem_tapeCells scratch seed entries padding reserve

/-- The two bits are back after two rounds, and there the machine finds the
cycle. -/
theorem words_between_subroutines_two_bits :
    (new "10" 1 1 1).HasWord ∧
      ∃ program, (new "10" 1 1 1).synthesize = .ok program ∧
        (∀ steps, '.' ∉ ((Machine.new program).after steps).state.toList →
          ∃ index scratch seed entries, Between (new "10" 1 1 1) index
            ((Machine.new program).after steps).state scratch seed
              entries) ∧
        ∃ steps padding reserve,
          ((Machine.new program).after steps).state = acceptState ∧
          Between (new "10" 1 1 1) 1 acceptState [true, false] [true, false]
            [[true, false], [false, true], [true, false]] ∧
          ((Machine.new program).after steps).tape.cells =
            tapeCells [true, false] [true, false]
              [[true, false], [false, true], [true, false]] padding
                reserve := by
  have hword : (new "10" 1 1 1).HasWord := by decide
  obtain ⟨program, hprogram, hwords⟩ := words_between_subroutines _ hword
  refine ⟨hword, program, hprogram, ?_, ?_⟩
  · intro steps hplain
    obtain ⟨index, scratch, seed, entries, _, _, hbetween, -⟩ :=
      hwords steps hplain
    exact ⟨index, scratch, seed, entries, hbetween⟩
  · obtain ⟨steps, hstate⟩ := exists_after_acceptState _ hword hprogram
    obtain ⟨index, scratch, seed, entries, padding, reserve, hbetween,
      hnodup, -, -, hcells, -⟩ := hwords steps (by rw [hstate]; decide)
    rw [hstate] at hbetween
    obtain ⟨hmem, hscratch, hseed, hentries⟩ := hbetween.found_of_acceptState
    -- Three seeds are one too many, and the second seed is a new one.
    have hsmall : index < 2 := by
      by_contra hlarge
      have hthree : (new "10" 1 1 1).seeds 3 <+:
          (new "10" 1 1 1).seeds (index + 1) :=
        seeds_prefix _ (by omega)
      exact absurd (hthree.sublist.nodup hnodup) (by decide)
    have hpos : index ≠ 0 := by
      rintro rfl
      exact absurd hmem (by decide)
    obtain rfl : index = 1 := by omega
    have hback : (new "10" 1 1 1).seedAt 2 = [true, false] := by decide
    have hlogged : (new "10" 1 1 1).seeds 3 =
        [[true, false], [false, true], [true, false]] := by decide
    rw [hscratch, hseed, hentries, hback, hlogged] at hbetween hcells
    exact ⟨steps, padding, reserve, hstate, hbetween, hcells⟩

end Generator

end XorOrbit
