import XorOrbit.Proofs.Layout.Padding
import XorOrbit.Proofs.Pipeline.Synthesis
import XorOrbit.Proofs.Run.Padding

/-!
# Padding cannot be observed

The blanks that a generator asks for around its tape are a reserve.  They
change neither its rules nor anything that its program does.
-/

namespace XorOrbit

namespace Synthesis

section Paddings

variable {generator : Generator} {layout : Layout} {table : Table}

/-- The program is the one of the generator without any reserves, padded. -/
theorem assemble_eq_pad (generator : Generator) (layout : Layout)
    (table : Table) :
    assemble generator layout table =
      (assemble { generator with leftPadding := 0, historyReserve := 0 }
        layout table).pad generator.leftPadding
          generator.historyReserve := by
  simp only [assemble, Program.pad, Layout.initialCells, Layout.initialHead,
    Program.mk.injEq, true_and, and_true]
  constructor
  · simp only [List.replicate_add, List.replicate_zero, List.nil_append,
      List.append_assoc, List.cons_append]
  · omega

/-- Machines for other reserves run alike. -/
theorem alike_assemble (generator : Generator) (layout : Layout)
    (table : Table) (leftPadding historyReserve : Nat) :
    Machine.Alike (.new (assemble generator layout table))
      (.new (assemble { generator with leftPadding, historyReserve }
        layout table)) := by
  rw [assemble_eq_pad generator,
    assemble_eq_pad { generator with leftPadding, historyReserve }]
  exact (Machine.Alike.pad _ _ _).symm.trans (Machine.Alike.pad _ _ _)

/-- Generators that differ in their reserves have the same rules. -/
theorem Sound.padded (hsound : Sound generator layout table)
    (leftPadding historyReserve : Nat) :
    Sound { generator with leftPadding, historyReserve } layout table := by
  obtain ⟨other, hother⟩ :=
    exists_sound { generator with leftPadding, historyReserve } layout
  have hpipeline : pipeline generator layout = .ok ⟨other, none⟩ :=
    hother.pipeline_eq
  rw [hsound.pipeline_eq] at hpipeline
  obtain rfl : table = other := by simpa using hpipeline
  exact hother

end Paddings

end Synthesis

open Synthesis

namespace Generator

/-- Machines on programs that differ in padding cannot be told apart, and so
the reserves of a generator change neither the rules nor the outcome nor any
region of the tape. -/
theorem padding_unobservable :
    (∀ (program : Program) (left right steps : Nat),
      let first := (Machine.new program).after steps
      let second := (Machine.new (program.pad left right)).after steps
      first.step.1 = second.step.1 ∧ first.symbol = second.symbol ∧
        Machine.Alike first second ∧
        ∀ bound, (first.run bound).1 = (second.run bound).1) ∧
    ∀ generator : Generator, generator.HasWord →
      ∀ leftPadding historyReserve : Nat, ∃ program other : Program,
        generator.synthesize = .ok program ∧
        { generator with leftPadding, historyReserve }.synthesize =
          .ok other ∧
        program.table = other.table ∧
        ∀ bound,
          let first := (Machine.new program).run bound
          let second := (Machine.new other).run bound
          first.1 = second.1 ∧
            first.2.stepCount = second.2.stepCount ∧
            first.2.state = second.2.state ∧
            Regions.seed? first.2.tape.cells =
              Regions.seed? second.2.tape.cells ∧
            Regions.scratch? first.2.tape.cells =
              Regions.scratch? second.2.tape.cells ∧
            Regions.history first.2.tape.cells =
              Regions.history second.2.tape.cells := by
  constructor
  · intro program left right steps first second
    have halike : Machine.Alike first second :=
      (Machine.Alike.pad program left right).after steps
    refine ⟨halike.step.1, halike.symbol_eq, halike, ?_⟩
    intro bound
    exact (halike.run bound).1
  · intro generator hword leftPadding historyReserve
    obtain ⟨layout, hlayout, -⟩ := hword.exists_layout
    obtain ⟨table, hsound⟩ := exists_sound generator layout
    refine ⟨_, _, hsound.synthesize_eq hlayout,
      (hsound.padded leftPadding historyReserve).synthesize_eq hlayout, rfl,
      ?_⟩
    intro bound first second
    obtain ⟨houtcome, halike⟩ := (alike_assemble generator layout table
      leftPadding historyReserve).run bound
    have hblank : first.2.tape.blank = Symbol.blank := Machine.blank_run _ _
    exact ⟨houtcome, halike.stepCount_eq, halike.state_eq,
      halike.tape.seed?_eq hblank, halike.tape.scratch?_eq hblank,
      halike.tape.history_eq hblank⟩

theorem padding_unobservable_two_bits :
    (new "10" 1 1 1).HasWord ∧ ∃ program other : Program,
      (new "10" 1 1 1).synthesize = .ok program ∧
      { new "10" 1 1 1 with
        leftPadding := 0, historyReserve := 3 }.synthesize = .ok other ∧
      ∀ bound,
        Regions.history ((Machine.new program).run bound).2.tape.cells =
          Regions.history ((Machine.new other).run bound).2.tape.cells := by
  have hword : (new "10" 1 1 1).HasWord := by decide
  obtain ⟨program, other, hprogram, hother, -, hruns⟩ :=
    padding_unobservable.2 (new "10" 1 1 1) hword 0 3
  refine ⟨hword, program, other, hprogram, hother, ?_⟩
  intro bound
  obtain ⟨-, -, -, -, -, hhistory⟩ := hruns bound
  exact hhistory

end Generator

end XorOrbit
