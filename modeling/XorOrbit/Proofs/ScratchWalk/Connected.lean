import XorOrbit.Proofs.Program.Connected
import XorOrbit.Proofs.ScratchWalk.Trace

/-!
# A walk over the scratch word is connected

The states of a walk are reached in the order of the scratch bits: the state
that reads a bit leads to the visits of the bit, and each visit leads to the
state for the next bit.  `ScratchWalk.Returns` is what this needs of the rules
of a visit.
-/

namespace XorOrbit.Synthesis.ScratchWalk

open Program

variable {program : Program} {origin start done : String} {layout : Layout}
  {ns : Namespace} {visitRules : Visit → List Rule}

/-- The rules of the visits are connected, and a visit can come back with the
bit that it came with. -/
def Returns (program : Program) (origin : String) (layout : Layout)
    (ns : Namespace) (visitRules : Visit → List Rule) : Prop :=
  ∀ index < layout.wordLength, ∀ bit,
    program.Joins origin (visit ns index bit).state →
    (∀ value, program.isKnown (returnState ns index value) = true) →
    program.Connects origin (visitRules (visit ns index bit)) ∧
      program.Joins origin (returnState ns index bit)

/-- A bit leads to its visits and they lead to the next bit. -/
theorem bit_connects {index : Nat} (hindex : index < layout.wordLength)
    (hbits : program.Follows (bitRules start layout ns index))
    (hcarry : ∀ bit,
      program.Follows (carryRules ns (visit ns index bit)))
    (hvisit : ∀ bit, program.isKnown (visit ns index bit).state = true)
    (hreturns : Returns program origin layout ns visitRules)
    (hrewind : program.isKnown (ns.state "rewind") = true)
    (hnext : program.isKnown (bitState start layout ns (index + 1)) = true)
    (hjoins : program.Joins origin (bitState start layout ns index)) :
    program.Connects origin (bitRules start layout ns index) ∧
      (∀ bit, program.Connects origin (carryRules ns (visit ns index bit)) ∧
        program.Connects origin (visitRules (visit ns index bit))) ∧
      program.Joins origin (bitState start layout ns (index + 1)) ∧
      program.Joins origin (ns.state "rewind") := by
  obtain ⟨hmark, hleave, hreturn⟩ := follows_bitRules hbits
  have hcarried : ∀ bit, program.Joins origin (carryState ns index bit) := by
    intro bit
    obtain ⟨-, hact⟩ := follows_carryRules (hcarry bit)
    exact hjoins.rule (hmark bit) hact
  have hvisited : ∀ bit, program.Joins origin (visit ns index bit).state := by
    intro bit
    obtain ⟨-, hact⟩ := follows_carryRules (hcarry bit)
    exact (hcarried bit).next hact (hvisit bit)
  have hknown : ∀ value,
      program.isKnown (returnState ns index value) = true :=
    fun value => isKnown_of_transition? ((hreturn value).2 false)
  have hback : ∀ bit, program.Joins origin (returnState ns index bit) :=
    fun bit => (hreturns index hindex bit (hvisited bit) hknown).2
  have hlater := (hback false).next ((hreturn false).2 false) hnext
  have hleft := hjoins.next hleave hrewind
  refine ⟨?_, ?_, hlater, hleft⟩
  · have hblank : program.Connects origin
        (if index = 0 then
          Phrase.pass (bitState start layout ns index) [Symbol.blank] .right
        else []) := by
      split
      · simp [hjoins]
      · exact connects_nil
    simp [bitRules, hblank, hjoins, hleft, hcarried, hback, hlater]
  · intro bit
    refine ⟨?_, (hreturns index hindex bit (hvisited bit) hknown).1⟩
    simp only [carryRules, connects_append, connects_pass, connects_cons]
    exact ⟨fun _ _ => hcarried bit, ⟨hcarried bit, hvisited bit⟩,
      connects_nil⟩

theorem connects_walkRules :
    program.Connects origin (walkRules start done layout ns visitRules) ↔
      (∀ index < layout.wordLength,
        program.Connects origin (bitRules start layout ns index) ∧
          ∀ bit, program.Connects origin
              (carryRules ns (visit ns index bit)) ∧
            program.Connects origin (visitRules (visit ns index bit))) ∧
        program.Connects origin (homeRules done ns) := by
  simp only [walkRules, visits, connects_append, List.flatMap_assoc,
    connects_flatMap, List.mem_range, List.flatMap_cons, List.flatMap_nil,
    approachRules, Bool.forall_bool]
  simp [visit, and_assoc]

/-- All states of a walk can be reached from its start state, and it leads
nowhere else than to its end. -/
theorem walk_connects
    (hfollows : program.Follows
      (walkRules start done layout ns visitRules))
    (hvisit : ∀ index < layout.wordLength, ∀ bit,
      program.isKnown (visit ns index bit).state = true)
    (hreturns : Returns program origin layout ns visitRules)
    (hstart : program.Joins origin start)
    (hdone : program.isKnown done = true) :
    program.Connects origin (walkRules start done layout ns visitRules) ∧
      program.Joins origin done := by
  obtain ⟨hrules, hhome⟩ := follows_walkRules.mp hfollows
  have hpos := layout.wordLength_pos
  have hleave : program.transition? (ns.state "rewind") Symbol.blank =
      some ⟨done, Symbol.blank, .right⟩ := by
    simp only [homeRules, follows_append, follows_cons, Rule.transition]
      at hhome
    exact hhome.2.1
  have hrewind := isKnown_of_transition? hleave
  have hnext : ∀ index < layout.wordLength,
      program.isKnown (bitState start layout ns (index + 1)) = true := by
    intro index hindex
    by_cases hlast : index + 1 = layout.wordLength
    · simpa [bitState, hlast, Nat.ne_of_gt hpos] using hrewind
    · obtain ⟨hmark, -⟩ := follows_bitRules
        (hrules (index + 1) (by omega)).1
      exact isKnown_of_transition? (hmark false)
  have hbit (index : Nat) (hindex : index < layout.wordLength) :=
    bit_connects hindex (hrules index hindex).1
      (fun bit => ((hrules index hindex).2 bit).1) (hvisit index hindex)
      hreturns hrewind (hnext index hindex)
  have hjoins : ∀ index ≤ layout.wordLength,
      program.Joins origin (bitState start layout ns index) :=
    fun _ => Joins.chain (by simpa [bitState] using hstart)
      fun index hindex hjoins => (hbit index hindex hjoins).2.2.1
  have hhomed := (hbit 0 hpos (hjoins 0 (Nat.zero_le _))).2.2.2
  have hexit := hhomed.next hleave hdone
  refine ⟨connects_walkRules.mpr ⟨?_, ?_⟩, hexit⟩
  · intro index hindex
    obtain ⟨hbits, hvisits, -⟩ :=
      hbit index hindex (hjoins index (Nat.le_of_lt hindex))
    exact ⟨hbits, hvisits⟩
  · simp [homeRules, hhomed, hexit]

theorem isKnown_visit_of_seek {visit : Visit} {distance : Nat}
    (hfollows : program.Follows (seekRules ns visit distance))
    (hknown : program.isKnown (seekState ns visit distance) = true) :
    program.isKnown visit.state = true := by
  simp only [seekRules, follows_flatMap, List.mem_range, follows_cross]
    at hfollows
  by_cases hzero : distance = 0
  · simpa [seekState, hzero] using hknown
  · have hrule := hfollows 0 (by omega) _ (Symbol.ofBit_mem_bits false)
    simpa [seekState] using isKnown_of_transition? hrule

/-- The states that step through the seed are reached one after the other. -/
theorem seek_connects {visit : Visit} {distance : Nat}
    (hfollows : program.Follows (seekRules ns visit distance))
    (hstart : program.Joins origin visit.state)
    (hknown : program.isKnown (seekState ns visit distance) = true) :
    program.Connects origin (seekRules ns visit distance) ∧
      program.Joins origin (seekState ns visit distance) := by
  simp only [seekRules, follows_flatMap, List.mem_range, follows_cross]
    at hfollows
  have hsteps : ∀ step ≤ distance,
      program.Joins origin (seekState ns visit step) := by
    intro step hstep
    refine Joins.steps (by simpa [seekState] using hstart) ?_ hknown hstep
    intro step hstep
    exact ⟨_, _, hfollows step hstep _ (Symbol.ofBit_mem_bits false), rfl⟩
  refine ⟨?_, hsteps distance (Nat.le_refl _)⟩
  simp only [seekRules, connects_flatMap, List.mem_range, connects_cross]
  intro step hstep _ _
  exact ⟨hsteps step (Nat.le_of_lt hstep), hsteps (step + 1) hstep⟩

end XorOrbit.Synthesis.ScratchWalk
