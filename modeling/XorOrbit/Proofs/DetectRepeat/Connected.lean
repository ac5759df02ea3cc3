import XorOrbit.Proofs.DetectRepeat.Trace
import XorOrbit.Proofs.Program.Connected

/-!
# The detection is connected

The states that append the seed are reached in the order of its bits, and so
are the states that compare an entry.  Each comparison can also miss, which
leads back to the first bit.
-/

namespace XorOrbit.Synthesis

namespace DetectRepeat

open Program

variable {program : Program} {origin start fresh repeated : String}
  {layout : Layout} {ns : Namespace}

/-! ## Appending -/

/-- A bit is carried to the log and leads to the next bit. -/
theorem appendBit_connects {index : Nat} (hindex : index < layout.wordLength)
    (hfollows : program.Follows (appendBitRules layout ns index))
    (hjoins : program.Joins origin (appendState layout ns index))
    (hnext : program.isKnown (appendState layout ns (index + 1)) = true) :
    program.Connects origin (appendBitRules layout ns index) ∧
      program.Joins origin (appendState layout ns (index + 1)) := by
  obtain ⟨hmark, hcarry, -, hrestore⟩ :=
    follows_appendBitRules hindex hfollows
  have hcarried : ∀ bit,
      program.Joins origin (appendCarryState ns index bit) :=
    fun bit => hjoins.rule (hmark bit) (hcarry bit).2
  have hback := (hcarried false).rule (hcarry false).2 (hrestore false)
  have hlater := hback.next (hrestore false) hnext
  have hstate : appendState layout ns index =
      ns.state s!"append_{index}" := by
    simp [appendState, Nat.ne_of_lt hindex]
  refine ⟨?_, hlater⟩
  rw [hstate] at hjoins
  simp only [appendCarryState, appendBackState] at hcarried hback
  simp only [appendBitRules, connects_append, connects_mark, connects_pass,
    connects_cons, connects_nil, connects_findMark, and_true]
  refine ⟨⟨⟨fun bit => ⟨hjoins, hcarried bit⟩, ?_⟩, ?_⟩, ?_⟩
  · exact ⟨fun _ _ => hcarried false, hcarried false, hback⟩
  · exact ⟨fun _ _ => hcarried true, hcarried true, hback⟩
  · exact ⟨fun _ _ => hback, hback, hlater⟩

/-- The states that append are reached, and so is the one that compares. -/
theorem append_connects
    (henter : program.Follows (enterRules start ns))
    (hfollows : program.Follows (appendRules layout ns))
    (hprobe : program.isKnown (ns.state "probe_0") = true)
    (hstart : program.Joins origin start) :
    program.Connects origin (enterRules start ns) ∧
      program.Connects origin (appendRules layout ns) ∧
      program.Joins origin (ns.state "probe_0") := by
  simp only [enterRules, follows_append, follows_cons] at henter
  obtain ⟨-, hfirst, -⟩ := henter
  simp only [appendRules, follows_append, follows_flatMap, List.mem_range,
    follows_pass, follows_cons, follows_nil, follows_travel,
    Rule.transition, and_true, and_assoc] at hfollows
  obtain ⟨hbits, -, hclose, -, hturn⟩ := hfollows
  have hpos := layout.wordLength_pos
  have hzero : appendState layout ns 0 = ns.state "append_0" := by
    rw [appendState, if_neg (by omega)]
    rfl
  have hknown : ∀ index < layout.wordLength,
      program.isKnown (appendState layout ns (index + 1)) = true := by
    intro index hindex
    by_cases hlast : index + 1 = layout.wordLength
    · rw [appendState, if_pos hlast]
      exact isKnown_of_transition? hclose
    · obtain ⟨hmark, -⟩ := follows_appendBitRules (by omega)
        (hbits (index + 1) (by omega))
      exact isKnown_of_transition? (hmark false)
  have happend : program.Joins origin (ns.state "append_0") := by
    obtain ⟨hmark, -⟩ := follows_appendBitRules hpos (hbits 0 hpos)
    rw [hzero] at hmark
    exact hstart.rule hfirst (hmark false)
  have hjoins : ∀ index ≤ layout.wordLength,
      program.Joins origin (appendState layout ns index) :=
    fun _ => Joins.chain (hzero ▸ happend) fun index hindex hjoins =>
      (appendBit_connects hindex (hbits index hindex) hjoins
        (hknown index hindex)).2
  have hseal : program.Joins origin (ns.state "seal") := by
    simpa [appendState] using hjoins layout.wordLength (Nat.le_refl _)
  have hrewind := hseal.rule hclose hturn
  have hprobed := hrewind.next hturn hprobe
  refine ⟨by simp [enterRules, hstart, happend], ?_, hprobed⟩
  simp only [appendRules, connects_append, connects_flatMap, List.mem_range]
  refine ⟨⟨⟨?_, ?_⟩, ?_⟩, ?_⟩
  · intro index hindex
    exact (appendBit_connects hindex (hbits index hindex)
      (hjoins index (Nat.le_of_lt hindex)) (hknown index hindex)).1
  · simp [hseal]
  · simp [hseal, hrewind]
  · simp [hrewind, hprobed]

/-! ## Comparing -/

/-- A bit of an entry leads to the seed bit, which agrees or does not. -/
theorem probeSeed_connects {index : Nat} {bit : Bool}
    (hfollows : program.Follows (probeSeedRules ns index bit))
    (hseek : program.Joins origin (probeSeekState ns index bit))
    (hmatch : program.isKnown (probeMatchState ns index) = true)
    (hmiss : program.isKnown (ns.state "back_miss") = true) :
    program.Connects origin (probeSeedRules ns index bit) ∧
      program.Joins origin (probeMatchState ns index) ∧
      program.Joins origin (ns.state "back_miss") := by
  obtain ⟨-, hturn, hsteps, hread⟩ := follows_probeSeedRules hfollows
  have hequal : program.transition?
      (probeStandingState ns index bit index) (Symbol.ofBit bit) =
        some ⟨probeMatchState ns index, Symbol.ofBit bit, .right⟩ := by
    simpa using hread bit
  have hother : program.transition?
      (probeStandingState ns index bit index) (Symbol.ofBit !bit) =
        some ⟨ns.state "back_miss", Symbol.ofBit !bit, .right⟩ := by
    simpa using hread !bit
  have hfirst : program.isKnown (probeStandingState ns index bit 0) =
      true := by
    by_cases hzero : index = 0
    · subst hzero
      exact isKnown_of_transition? hequal
    · exact isKnown_of_transition?
        (hsteps 0 (by omega) _ (Symbol.ofBit_mem_bits false))
  have hstanding : ∀ step ≤ index,
      program.Joins origin (probeStandingState ns index bit step) := by
    intro step hstep
    refine Joins.steps (hseek.next hturn hfirst) ?_
      (isKnown_of_transition? hequal) hstep
    intro step hstep
    exact ⟨_, _, hsteps step hstep _ (Symbol.ofBit_mem_bits false), rfl⟩
  have hlast := hstanding index (Nat.le_refl _)
  have hmatched := hlast.next hequal hmatch
  have hmissed := hlast.next hother hmiss
  refine ⟨?_, hmatched, hmissed⟩
  simp only [probeSeekState, probeStandingState, probeMatchState]
    at hseek hstanding hlast hmatched
  simp only [probeSeedRules, connects_append, connects_travel,
    connects_flatMap, List.mem_range, connects_cross, connects_cons,
    connects_nil, and_true]
  refine ⟨⟨⟨fun _ _ => hseek, hseek, ?_⟩, ?_⟩, ⟨hlast, hmatched⟩, hlast,
    hmissed⟩
  · exact hstanding 0 (Nat.zero_le _)
  · intro step hstep _ _
    exact ⟨hstanding step (Nat.le_of_lt hstep), hstanding (step + 1) hstep⟩

/-- A bit of an entry that agrees leads to its next bit. -/
theorem probe_connects {index : Nat} (hindex : index < layout.wordLength)
    (hfollows : program.Follows (probeRules layout ns index))
    (hjoins : program.Joins origin (probeState layout ns index))
    (hmiss : program.isKnown (ns.state "back_miss") = true)
    (hnext : program.isKnown (probeState layout ns (index + 1)) = true) :
    program.Connects origin (probeRules layout ns index) ∧
      program.Joins origin (probeState layout ns (index + 1)) ∧
      program.Joins origin (ns.state "back_miss") := by
  obtain ⟨hmark, hseed, -, hrestore⟩ := follows_probeRules hindex hfollows
  have hseek : ∀ bit, program.Joins origin (probeSeekState ns index bit) := by
    intro bit
    obtain ⟨-, hturn, -, -⟩ := follows_probeSeedRules (hseed bit)
    exact hjoins.rule (hmark bit) hturn
  have hseeds (bit : Bool) := probeSeed_connects (hseed bit) (hseek bit)
    (isKnown_of_transition? (hrestore false)) hmiss
  obtain ⟨-, hmatched, hmissed⟩ := hseeds false
  have hlater := hmatched.next (hrestore false) hnext
  have hstate : probeState layout ns index = ns.state s!"probe_{index}" := by
    rw [probeState, if_neg (by omega)]
  refine ⟨?_, hlater, hmissed⟩
  rw [hstate] at hjoins
  simp only [probeSeekState, probeMatchState] at hseek hmatched
  simp only [probeRules, connects_append, connects_mark, connects_findMark]
  exact ⟨⟨⟨fun bit => ⟨hjoins, hseek bit⟩, (hseeds false).1⟩,
    (hseeds true).1⟩, fun _ _ => hmatched, hmatched, hlater⟩

/-- The states that compare are reached, and so is the verdict. -/
theorem compare_connects
    (hfollows : program.Follows (compareRules layout ns))
    (hstart : program.Joins origin (ns.state "probe_0"))
    (hverdict : program.isKnown (ns.state "verdict") = true) :
    program.Connects origin (compareRules layout ns) ∧
      program.Joins origin (ns.state "verdict") := by
  simp only [compareRules, follows_append, follows_flatMap, List.mem_range,
    follows_findMark, follows_travel, and_assoc] at hfollows
  obtain ⟨hprobe, -, hrestore, -, hskip⟩ := hfollows
  have hpos := layout.wordLength_pos
  have hmiss := isKnown_of_transition? (hrestore false)
  have hknown : ∀ index < layout.wordLength,
      program.isKnown (probeState layout ns (index + 1)) = true := by
    intro index hindex
    by_cases hlast : index + 1 = layout.wordLength
    · rw [probeState, if_pos hlast]
      exact hverdict
    · obtain ⟨hmark, -⟩ := follows_probeRules (by omega)
        (hprobe (index + 1) (by omega))
      exact isKnown_of_transition? (hmark false)
  have hjoins : ∀ index ≤ layout.wordLength,
      program.Joins origin (probeState layout ns index) :=
    fun _ => Joins.chain (probeState_zero layout ns ▸ hstart)
      fun index hindex hjoins =>
        (probe_connects hindex (hprobe index hindex) hjoins hmiss
          (hknown index hindex)).2.1
  have hback := (probe_connects hpos (hprobe 0 hpos)
    (hjoins 0 (Nat.zero_le _)) hmiss (hknown 0 hpos)).2.2
  have hskipped := hback.rule (hrestore false) hskip
  have hjudged : program.Joins origin (ns.state "verdict") := by
    simpa [probeState] using hjoins layout.wordLength (Nat.le_refl _)
  refine ⟨?_, hjudged⟩
  simp only [compareRules, connects_append, connects_flatMap, List.mem_range]
  refine ⟨⟨?_, ?_⟩, ?_⟩
  · intro index hindex
    exact (probe_connects hindex (hprobe index hindex)
      (hjoins index (Nat.le_of_lt hindex)) hmiss (hknown index hindex)).1
  · simp [hback, hskipped]
  · simp [hskipped, hstart]

/-! ## The verdict -/

theorem verdict_connects
    (hfollows : program.Follows (verdictRules fresh repeated ns))
    (hverdict : program.Joins origin (ns.state "verdict"))
    (hfresh : program.isKnown fresh = true)
    (hrepeated : program.isKnown repeated = true) :
    program.Connects origin (verdictRules fresh repeated ns) ∧
      program.Joins origin fresh ∧ program.Joins origin repeated := by
  simp only [verdictRules, follows_append, follows_cons, follows_nil,
    follows_pass, follows_travel, Rule.transition, and_true,
    and_assoc] at hfollows
  obtain ⟨hfound, hclose, -, hclose', -, hhome, -, hhome'⟩ := hfollows
  have hseal := hverdict.rule hfound hclose'
  have hcontinue := hverdict.rule hclose hhome
  have hreturn := hseal.rule hclose' hhome'
  have hleft := hcontinue.next hhome hfresh
  have hleft' := hreturn.next hhome' hrepeated
  refine ⟨?_, hleft, hleft'⟩
  simp [verdictRules, hverdict, hseal, hcontinue, hreturn, hleft, hleft']

end DetectRepeat

open DetectRepeat in
/-- All states of the detection can be reached from its start state, and it
leads nowhere else than to its two ends. -/
theorem detectRepeat_connects {program : Program}
    {origin start fresh repeated : String} {layout : Layout} {ns : Namespace}
    (hfollows : program.Follows
      (detectRepeatRules start fresh repeated layout ns))
    (hstart : program.Joins origin start)
    (hfresh : program.isKnown fresh = true)
    (hrepeated : program.isKnown repeated = true) :
    program.Connects origin
        (detectRepeatRules start fresh repeated layout ns) ∧
      program.Joins origin fresh ∧ program.Joins origin repeated := by
  simp only [detectRepeatRules, Program.follows_append,
    and_assoc] at hfollows
  obtain ⟨henter, happend, hcompare, hverdict⟩ := hfollows
  have hprobe : program.isKnown (ns.state "probe_0") = true := by
    simp only [compareRules, Program.follows_append,
      Program.follows_flatMap, List.mem_range] at hcompare
    have hpos := layout.wordLength_pos
    obtain ⟨hmark, -⟩ := follows_probeRules hpos (hcompare.1.1 0 hpos)
    rw [probeState_zero] at hmark
    exact Program.isKnown_of_transition? (hmark false)
  have hknown : program.isKnown (ns.state "verdict") = true := by
    simp only [verdictRules, Program.follows_append,
      Program.follows_cons] at hverdict
    exact Program.isKnown_of_transition? hverdict.1.1.1.1.1
  obtain ⟨hentered, happended, hprobed⟩ :=
    append_connects henter happend hprobe hstart
  obtain ⟨hcompared, hjudged⟩ := compare_connects hcompare hprobed hknown
  obtain ⟨hclosed, hexits⟩ :=
    verdict_connects hverdict hjudged hfresh hrepeated
  refine ⟨?_, hexits⟩
  simp only [detectRepeatRules, Program.connects_append]
  exact ⟨⟨⟨hentered, happended⟩, hcompared⟩, hclosed⟩

end XorOrbit.Synthesis
