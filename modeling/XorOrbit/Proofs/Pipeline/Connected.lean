import XorOrbit.Proofs.CopySeed.Connected
import XorOrbit.Proofs.DetectRepeat.Connected
import XorOrbit.Proofs.Pipeline.Rules

/-!
# The program of a generator is connected

Each subroutine is entered from the ones before it, and the state in which it
ends has rules because the next subroutine starts there.  Only the accepting
state has none.
-/

namespace XorOrbit.Synthesis

open DetectRepeat (detectRepeatRules)

section Entries

variable {program : Program} {start done fresh repeated : String}
  {layout : Layout} {ns : Namespace}

theorem isKnown_copySeed
    (hfollows : program.Follows (copySeedRules start done ns)) :
    program.isKnown start = true :=
  Program.isKnown_of_transition? (copies_of_follows hfollows).turn

theorem isKnown_detectRepeat
    (hfollows : program.Follows
      (detectRepeatRules start fresh repeated layout ns)) :
    program.isKnown start = true := by
  simp only [detectRepeatRules, DetectRepeat.enterRules,
    Program.follows_append, Program.follows_cons, and_assoc] at hfollows
  exact Program.isKnown_of_transition? hfollows.2.1

theorem isKnown_walk {visitRules : Visit → List Rule}
    (hfollows : program.Follows
      (ScratchWalk.walkRules start done layout ns visitRules)) :
    program.isKnown start = true := by
  have hbits := ((ScratchWalk.follows_walkRules.mp hfollows).1 0
    layout.wordLength_pos).1
  obtain ⟨hmark, -⟩ := ScratchWalk.follows_bitRules hbits
  simpa [ScratchWalk.bitState] using
    Program.isKnown_of_transition? (hmark false)

end Entries

section Pipeline

variable {program : Program} {origin : String} {layout : Layout}

/-- The first subroutine of a stage leads to the second and that one to the
next stage. -/
theorem stage_connects {stage : Stage}
    (hfollows : program.Follows (stageRules layout stage).flatten)
    (hstart : program.Joins origin stage.shift)
    (hnext : program.isKnown stage.next = true) :
    program.Connects origin (stageRules layout stage).flatten ∧
      program.Joins origin stage.next := by
  simp only [stageRules, List.flatten_cons, List.flatten_nil,
    List.append_nil, Program.follows_append] at hfollows ⊢
  obtain ⟨hshift, hcommit⟩ := hfollows
  obtain ⟨hshifted, hcommitted⟩ :=
    xorOffset_connects hshift hstart (isKnown_walk hcommit)
  obtain ⟨hupdated, hleft⟩ := commitSeed_connects hcommit hcommitted hnext
  exact ⟨Program.connects_append.mpr ⟨hshifted, hupdated⟩, hleft⟩

/-- All rules of the program are for states that can be reached, and lead to
states with rules or to the accepting state. -/
theorem pipeline_connects {generator : Generator}
    (hfollows : program.Follows (pipelineRules generator layout).flatten)
    (haccept : program.isKnown acceptState = true) :
    program.Connects startState
      (pipelineRules generator layout).flatten := by
  simp only [pipelineRules, stages_eq, List.flatMap_cons, List.flatMap_nil,
    List.flatten_append, List.flatten_cons, List.flatten_nil,
    List.append_nil, Program.follows_append, Program.connects_append,
    and_assoc] at hfollows ⊢
  obtain ⟨hstart, hinitial, hcopy, hstageA, hstageB, hstageC, hscan⟩ :=
    hfollows
  have hcycle := isKnown_copySeed hcopy
  have hshift : ∀ stage : Stage,
      program.Follows (stageRules layout stage).flatten →
        program.isKnown stage.shift = true := by
    intro stage hstage
    simp only [stageRules, List.flatten_cons,
      Program.follows_append] at hstage
    exact isKnown_walk hstage.1
  simp only [startRules, Program.follows_append, Program.follows_cons,
    Program.follows_nil, Program.follows_pass, and_true,
    Program.connects_append, Program.connects_cons, Program.connects_nil,
    Program.connects_pass] at hstart ⊢
  have hstarted := Program.joins_start hstart.2
  have hentered := hstarted.next hstart.2 (isKnown_detectRepeat hinitial)
  obtain ⟨hinitial', hcycled, -⟩ :=
    detectRepeat_connects hinitial hentered hcycle haccept
  obtain ⟨hcopied, hshifted⟩ :=
    copySeed_connects hcopy hcycled (hshift _ hstageA)
  obtain ⟨hstageA', hdoneA⟩ :=
    stage_connects hstageA hshifted (hshift _ hstageB)
  obtain ⟨hstageB', hdoneB⟩ :=
    stage_connects hstageB hdoneA (hshift _ hstageC)
  obtain ⟨hstageC', hdoneC⟩ :=
    stage_connects hstageC hdoneB (isKnown_detectRepeat hscan)
  obtain ⟨hscan', -, -⟩ :=
    detectRepeat_connects hscan hdoneC hcycle haccept
  exact ⟨⟨fun _ _ => hstarted, hstarted, hentered⟩, hinitial', hcopied,
    hstageA', hstageB', hstageC', hscan'⟩

end Pipeline

end XorOrbit.Synthesis
