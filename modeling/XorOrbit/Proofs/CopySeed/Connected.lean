import XorOrbit.Proofs.CopySeed.Trace
import XorOrbit.Proofs.Program.Connected

/-!
# The copy is connected
-/

namespace XorOrbit.Synthesis

open Program

/-- From a start state that can be reached, all states of the copy can be
reached, and it leads nowhere else than to its end. -/
theorem copySeed_connects {program : Program} {origin start done : String}
    {ns : Namespace}
    (hfollows : program.Follows (copySeedRules start done ns))
    (hstart : program.Joins origin start)
    (hdone : program.isKnown done = true) :
    program.Connects origin (copySeedRules start done ns) ∧
      program.Joins origin done := by
  have hcopies := copies_of_follows hfollows
  have hseek := hstart.rule hcopies.turn hcopies.sought
  have hclear := hseek.rule hcopies.sought hcopies.cleared
  have htoEnd := hclear.rule hcopies.cleared hcopies.passed
  have hfind := htoEnd.rule hcopies.passed hcopies.found
  have hunmark := hfind.rule hcopies.found hcopies.unmarked
  have hrewind := hunmark.rule hcopies.unmarked hcopies.rewound
  have hhome := hrewind.rule hcopies.rewound hcopies.leave
  have hcarry : ∀ bit, program.Joins origin (copyCarryState ns bit) :=
    fun bit => hfind.rule (hcopies.mark bit) (hcopies.cross bit)
  have hdrop : ∀ bit, program.Joins origin (copyDropState ns bit) :=
    fun bit => (hcarry bit).rule (hcopies.cross bit) (hcopies.write bit)
  have hbit : ∀ bit, program.Connects origin (copyBitRules ns bit) := by
    intro bit
    have hcarried := hcarry bit
    have hdropped := hdrop bit
    simp only [copyCarryState, copyDropState] at hcarried hdropped
    simp [copyBitRules, hcarried, hdropped, htoEnd]
  simp only [copyCarryState] at hcarry
  have hexit := hhome.next hcopies.leave hdone
  refine ⟨?_, hexit⟩
  simp [copySeedRules, hstart, hseek, hclear, htoEnd, hfind, hunmark,
    hrewind, hhome, hexit, hcarry, hbit]

end XorOrbit.Synthesis
