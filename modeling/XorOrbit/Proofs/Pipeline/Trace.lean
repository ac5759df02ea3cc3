import XorOrbit.Proofs.Pipeline.Stage
import XorOrbit.Proofs.Pipeline.Synthesis

/-!
# The run of a generator's program

The traces of the subroutines are put together to the trace of one round, which
appends the next seed to the log, and the rounds to the trace of the whole run.
Every round starts with the head on the seed start and with the log of all
seeds up to the current one.
-/

namespace XorOrbit.Synthesis

/-- Between two subroutines, with the head on the seed start. -/
def onSeedStart (state : String) (scratch seed : Word) (entries : List Word)
    (padding reserve : Nat) : Configuration :=
  ⟨state, .rightOf (blanks padding ++ scratch.cells)
    (Symbol.seedStart :: seed.cells ++ Symbol.seedEnd ::
      (logCells entries ++ blanks reserve))⟩

/-- Between two subroutines, with the head on the first scratch bit, or on the
seed start if there is none. -/
def onScratch (state : String) (scratch seed : Word) (entries : List Word)
    (padding reserve : Nat) : Configuration :=
  ⟨state, .rightOf (blanks padding)
    (scratch.cells ++ Symbol.seedStart :: seed.cells ++ Symbol.seedEnd ::
      (logCells entries ++ blanks reserve))⟩

/-! ## The subroutines -/

section Subroutines

variable {program : Program} {generator : Generator} {layout : Layout}
  {reference : List Word} {start done : String} {ns : Namespace}
  {scratch seed : Word} {entries : List Word} {padding reserve : Nat}

theorem detect_running {fresh repeated : String}
    (hfollows : program.Follows
      (DetectRepeat.detectRepeatRules start fresh repeated layout ns))
    (hstart : Running generator layout reference start
      (tapeCells scratch seed entries padding reserve))
    (hseed : seed.length = layout.wordLength)
    (hlengths : ∀ entry ∈ entries, entry.length = layout.wordLength)
    (hentries : entries ++ [seed] <+: reference) :
    Trace program (Running generator layout reference)
      (onScratch start scratch seed entries padding reserve)
      (onSeedStart (if seed ∈ entries then repeated else fresh) scratch seed
        (entries ++ [seed]) padding (reserve - (layout.wordLength + 1))) := by
  have hbefore : blanks padding ++ scratch.cells ⊆
      Symbol.blank :: Symbol.bits := by
    simp [List.append_subset]
  have htrace := detectRepeat_trace hfollows seed hseed entries hlengths
    (blanks padding) scratch.cells (by simp) reserve
  exact htrace.mono fun state cells hdetecting =>
    running_of_detecting hstart hseed hbefore hentries hdetecting

theorem copy_running
    (hfollows : program.Follows (copySeedRules start done ns))
    (hstart : Running generator layout reference start
      (tapeCells scratch seed entries padding reserve))
    (hseed : seed.length = layout.wordLength)
    (hentries : entries <+: reference) :
    Trace program (Running generator layout reference)
      (onSeedStart start scratch seed entries padding reserve)
      (onScratch done seed seed entries (copyPadding padding scratch seed)
        reserve) := by
  have htrace := copySeed_trace hfollows scratch seed padding
    (blanks padding ++ scratch.cells) (Symbol.seedStart :: seed.cells)
    (logCells entries ++ blanks reserve) rfl
  exact htrace.mono fun state cells hcopying =>
    running_of_copying hstart hseed hentries rfl hcopying

/-- A walk that starts on the first scratch bit. -/
theorem walk_running {visitRules : Visit → List Rule}
    {effect : ScratchWalk.Effect} {valid : Word → Prop}
    (hfollows : program.Follows
      (ScratchWalk.walkRules start done layout ns visitRules))
    (hacts : ScratchWalk.Acts program layout ns effect valid
      (Symbol.seedEnd :: (logCells entries ++ blanks reserve)))
    (hvalid : ∀ seed, valid seed → seed.length = layout.wordLength)
    (hstart : Running generator layout reference start
      (tapeCells scratch seed entries (padding + 1) reserve))
    (hseed : valid seed) (hentries : entries <+: reference)
    {scratch' seed' : Word}
    (hwalked : ScratchWalk.walked effect layout.wordLength 0 scratch seed =
      (scratch', seed')) :
    Trace program (Running generator layout reference)
      (onScratch start scratch seed entries (padding + 1) reserve)
      (onScratch done scratch' seed' entries (padding + 1) reserve) := by
  have hbefore : Blank (blanks (padding + 1) ++ []) := by
    simp [Blank]
  have hafter : Blank (blanks padding ++ [Symbol.blank]) := by
    simp [Blank, List.append_subset]
  obtain ⟨-, htrace⟩ := ScratchWalk.scratchWalk_trace hfollows hacts
    (blanks (padding + 1)) [] (blanks padding) (by simp)
    (by simp [blanks_succ']) hbefore hafter scratch seed hseed
  rw [hwalked] at htrace
  simp only [List.nil_append, List.append_nil] at htrace
  rw [← blanks_succ'] at htrace
  refine Trace.mono (by simpa [onScratch] using htrace) ?_
  intro state cells hwalking
  exact running_of_walking hstart hvalid hentries rfl
    (by simpa [tapeCells] using hwalking)

theorem xor_running {offset : Int}
    (hfollows : program.Follows
      (xorOffsetRules start done offset layout ns))
    (hstart : Running generator layout reference start
      (tapeCells seed seed entries (padding + 1) reserve))
    (hseed : seed.length = layout.wordLength)
    (hentries : entries <+: reference) :
    Trace program (Running generator layout reference)
      (onScratch start seed seed entries (padding + 1) reserve)
      (onScratch done (seed.xorShifted offset) seed entries (padding + 1)
        reserve) := by
  have hvisits := ScratchWalk.follows_visitRules hfollows
  refine walk_running hfollows (xorVisitRules_acts hseed hvisits) ?_ hstart
    rfl hentries ?_
  · rintro _ rfl
    exact hseed
  · rw [← hseed]
    exact walked_xorEffect offset seed

theorem commit_running
    (hfollows : program.Follows (commitSeedRules start done layout ns))
    (hstart : Running generator layout reference start
      (tapeCells scratch seed entries (padding + 1) reserve))
    (hscratch : scratch.length = layout.wordLength)
    (hseed : seed.length = layout.wordLength)
    (hentries : entries <+: reference) :
    Trace program (Running generator layout reference)
      (onScratch start scratch seed entries (padding + 1) reserve)
      (onScratch done scratch scratch entries (padding + 1) reserve) := by
  have hvisits := ScratchWalk.follows_visitRules hfollows
  refine walk_running hfollows (commitVisitRules_acts hvisits)
    (fun _ hlength => hlength) hstart hseed hentries ?_
  rw [← hseed]
  exact walked_commitEffect_eq scratch seed (hscratch.trans hseed.symm)

end Subroutines

/-! ## Rounds -/

section Rounds

variable {program : Program} {generator : Generator} {layout : Layout}
  {reference : List Word}

/-- The two subroutines of a stage combine the seed with its shifted copy. -/
theorem stage_running {stage : Stage} {index : Nat} {seed word : Word}
    {entries : List Word}
    (hfollows : program.Follows (stageRules layout stage).flatten)
    (hnodup : (generator.seeds (index + 1)).Nodup)
    (hentries : entries <+: reference)
    (hseed : seed.length = layout.wordLength)
    (hword : seed.xorShifted stage.offset = word)
    (hshift : Between generator index stage.shift seed seed entries)
    (hcommit : Between generator index stage.commit word seed entries)
    (padding reserve : Nat) :
    Trace program (Running generator layout reference)
      (onScratch stage.shift seed seed entries (padding + 1) reserve)
      (onScratch stage.next word word entries (padding + 1) reserve) := by
  simp only [stageRules, List.flatten_cons, List.flatten_nil,
    List.append_nil, Program.follows_append] at hfollows
  have hlength : word.length = layout.wordLength := by
    rw [← hword, Word.length_xorShifted, hseed]
  have hshifted := xor_running hfollows.1
    (running_between hnodup hshift hseed hentries (padding + 1) reserve)
    hseed hentries
  rw [hword] at hshifted
  exact hshifted.trans (commit_running hfollows.2
    (running_between hnodup hcommit hseed hentries (padding + 1) reserve)
    hlength hseed hentries)

variable (hlayout : generator.validate = .ok layout)
  (hfollows : program.Follows (pipelineRules generator layout).flatten)
include hlayout hfollows

/-- The three stages compute the next seed. -/
theorem stages_running {index : Nat}
    (hnodup : (generator.seeds (index + 1)).Nodup)
    (hentries : generator.seeds (index + 1) <+: reference)
    (padding reserve : Nat) :
    Trace program (Running generator layout reference)
      (onScratch "shift_a" (generator.seedAt index) (generator.seedAt index)
        (generator.seeds (index + 1)) (padding + 1) reserve)
      (onScratch "scan" (generator.seedAt (index + 1))
        (generator.seedAt (index + 1)) (generator.seeds (index + 1))
          (padding + 1) reserve) := by
  have hseed := Generator.length_seedAt hlayout index
  simp only [pipelineRules, stages_eq, List.flatMap_cons, List.flatMap_nil,
    List.flatten_append, List.flatten_cons, List.flatten_nil,
    List.append_nil, Program.follows_append, and_assoc] at hfollows
  obtain ⟨-, -, -, hstageA, hstageB, hstageC, -⟩ := hfollows
  have hlengthA : (generator.stepA (generator.seedAt index)).length =
      layout.wordLength := by
    rw [Generator.length_stepA, hseed]
  have hlengthB : (generator.stepB
      (generator.stepA (generator.seedAt index))).length =
        layout.wordLength := by
    rw [Generator.length_stepB, hlengthA]
  have hnext : (generator.stepB (generator.stepA
      (generator.seedAt index))).xorShifted
        (generator.offsets layout).2.2 = generator.seedAt (index + 1) := by
    rw [Generator.xorShifted_trd_offsets hlengthB, generator.seedAt_succ]
    rfl
  have hfirst := stage_running hstageA hnodup hentries hseed
    (Generator.xorShifted_fst_offsets hseed) .shiftA .commitA padding reserve
  have hsecond := stage_running hstageB hnodup hentries hlengthA
    (Generator.xorShifted_snd_offsets hlengthA) .shiftB .commitB padding
    reserve
  have hthird := stage_running hstageC hnodup hentries hlengthB hnext
    .shiftC .commitC padding reserve
  exact hfirst.trans (hsecond.trans hthird)

/-- One round: the next seed is computed from the current one and appended to
the log. -/
theorem round_running {index : Nat}
    (hnodup : (generator.seeds (index + 1)).Nodup)
    (hentries : generator.seeds (index + 2) <+: reference)
    {padding padding' : Nat}
    (hpadding : copyPadding padding
      (if index = 0 then [] else generator.seedAt index)
      (generator.seedAt index) = padding' + 1) (reserve : Nat) :
    Trace program (Running generator layout reference)
      (onSeedStart "cycle" (if index = 0 then [] else generator.seedAt index)
        (generator.seedAt index) (generator.seeds (index + 1)) padding
          reserve)
      (onSeedStart
        (if generator.seedAt (index + 1) ∈ generator.seeds (index + 1) then
          acceptState else "cycle")
        (generator.seedAt (index + 1)) (generator.seedAt (index + 1))
          (generator.seeds (index + 2)) (padding' + 1)
            (reserve - (layout.wordLength + 1))) := by
  have hseed := Generator.length_seedAt hlayout index
  have hnext := Generator.length_seedAt hlayout (index + 1)
  have hearlier : generator.seeds (index + 1) <+: reference :=
    (generator.seeds_prefix (Nat.le_succ _)).trans hentries
  have hstages := stages_running hlayout hfollows hnodup hearlier padding'
    reserve
  simp only [pipelineRules, List.flatten_append, List.flatten_cons,
    List.flatten_nil, List.append_nil, Program.follows_append,
    and_assoc] at hfollows
  obtain ⟨-, -, hcopy, -, hscan⟩ := hfollows
  have hcopied := copy_running hcopy
    (running_between hnodup .cycle hseed hearlier padding reserve) hseed
    hearlier
  have hdetected := detect_running hscan
    (running_between hnodup .scan hnext hearlier (padding' + 1) reserve)
    hnext (fun _ hword => Generator.length_of_mem_seeds hlayout hword)
    (by rwa [← generator.seeds_succ])
  rw [hpadding] at hcopied
  rw [← generator.seeds_succ] at hdetected
  exact hcopied.trans (hstages.trans hdetected)

/-- The rounds up to the first repeated seed. -/
theorem rounds_running {last : Nat} (hlast : generator.FirstRepeat last)
    (remaining index : Nat) (hindex : index + 1 + remaining = last)
    {padding padding' : Nat}
    (hpadding : copyPadding padding
      (if index = 0 then [] else generator.seedAt index)
      (generator.seedAt index) = padding' + 1) (reserve : Nat) :
    Trace program (Running generator layout (generator.seeds (last + 1)))
      (onSeedStart "cycle" (if index = 0 then [] else generator.seedAt index)
        (generator.seedAt index) (generator.seeds (index + 1)) padding
          reserve)
      (onSeedStart acceptState (generator.seedAt last)
        (generator.seedAt last) (generator.seeds (last + 1)) (padding' + 1)
          (reserve - (remaining + 1) * (layout.wordLength + 1))) := by
  induction remaining generalizing index padding reserve with
  | zero =>
      obtain rfl : index + 1 = last := hindex
      have hround := round_running hlayout hfollows hlast.nodup
        (List.prefix_refl _) hpadding reserve
      rw [if_pos hlast.mem] at hround
      simpa using hround
  | succ remaining ih =>
      have hle : index + 2 ≤ last := by omega
      have hnodup : (generator.seeds (index + 2)).Nodup :=
        (generator.seeds_prefix hle).sublist.nodup hlast.nodup
      have hentries : generator.seeds (index + 2) <+:
          generator.seeds (last + 1) :=
        generator.seeds_prefix (by omega)
      have hround := round_running hlayout hfollows
        ((generator.seeds_prefix (Nat.le_succ _)).sublist.nodup hnodup)
        hentries hpadding reserve
      have hnew : generator.seedAt (index + 1) ∉
          generator.seeds (index + 1) := by
        rw [generator.seeds_succ, List.nodup_append'] at hnodup
        simpa using hnodup.2.2
      have hkept : copyPadding (padding' + 1)
          (if index + 1 = 0 then [] else generator.seedAt (index + 1))
          (generator.seedAt (index + 1)) = padding' + 1 := by
        simp [copyPadding]
      have hrest := ih (index + 1) (by omega) hkept
        (reserve - (layout.wordLength + 1))
      rw [if_neg hnew] at hround
      rw [if_neg (Nat.succ_ne_zero index)] at hrest
      rw [Nat.sub_sub, Nat.add_comm (layout.wordLength + 1),
        ← Nat.succ_mul] at hrest
      exact hround.trans hrest

end Rounds

/-! ## The whole run -/

section Run

variable {generator : Generator} {layout : Layout} {table : Table}
  (hlayout : generator.validate = .ok layout)
  (hsound : Sound generator layout table)
include hlayout

/-- The program starts with the head on the first seed bit. -/
theorem initial_assemble (table : Table) :
    Configuration.initial (assemble generator layout table) =
      ⟨startState, .rightOf
        (blanks (generator.leftPadding + layout.wordLength) ++
          [Symbol.seedStart])
        ((generator.seedAt 0).cells ++ Symbol.seedEnd ::
          blanks generator.historyReserve)⟩ := by
  have hcells : (generator.seedAt 0).cells = generator.seed.toList :=
    Generator.cells_ofText_seed hlayout
  rw [← Tape.ofCells_append, hcells]
  simp [Configuration.initial, assemble, Layout.initialCells,
    Layout.initialHead, blanks]

include hsound

/-- Before the first detection the head goes to the seed start. -/
theorem start_running {reference : List Word} :
    Trace (assemble generator layout table)
      (Running generator layout reference)
      (Configuration.initial (assemble generator layout table))
      (onScratch "scan_initial" [] (generator.seedAt 0) []
        (generator.leftPadding + layout.wordLength)
          generator.historyReserve) := by
  have hfollows := hsound.follows
  simp only [pipelineRules, List.flatten_append, List.flatten_cons,
    startRules, Program.follows_append, Program.follows_pass,
    Program.follows_cons, and_assoc] at hfollows
  obtain ⟨hpass, hturn, -⟩ := hfollows
  have hseed := Generator.length_seedAt hlayout 0
  have hpos := layout.wordLength_pos
  have hstart : Running generator layout reference startState
      (tapeCells [] (generator.seedAt 0) []
        (generator.leftPadding + layout.wordLength)
          generator.historyReserve) :=
    running_between (generator.nodup_seeds_one) .start hseed
      List.nil_prefix _ _
  rw [initial_assemble hlayout]
  cases hfirst : generator.seedAt 0 with
  | nil =>
      rw [hfirst, List.length_nil] at hseed
      omega
  | cons bit rest =>
      rw [hfirst] at hstart
      have hleft := Trace.moveLeft (Running generator layout reference)
        (blanks (generator.leftPadding + layout.wordLength) ++
          [Symbol.seedStart])
        (Word.cells rest ++ Symbol.seedEnd ::
          blanks generator.historyReserve)
        (hpass _ (Symbol.ofBit_mem_bits bit))
        (by simpa [tapeCells] using hstart)
      have hstay := Trace.stay (Running generator layout reference)
        (blanks (generator.leftPadding + layout.wordLength))
        (Word.cells (bit :: rest) ++ Symbol.seedEnd ::
          blanks generator.historyReserve) hturn
        (by simpa [tapeCells] using hstart)
      rw [Tape.leftOf_concat] at hleft
      simpa [onScratch] using hleft.trans hstay

/-- The run ends in the accepting state with all seeds up to the first
repeated one in the log. -/
theorem pipeline_running {last : Nat} (hlast : generator.FirstRepeat last) :
    Trace (assemble generator layout table)
      (Running generator layout (generator.seeds (last + 1)))
      (Configuration.initial (assemble generator layout table))
      (onSeedStart acceptState (generator.seedAt last)
        (generator.seedAt last) (generator.seeds (last + 1))
          (max generator.leftPadding 1)
            (generator.historyReserve -
              (last + 1) * (layout.wordLength + 1))) := by
  have hseed := Generator.length_seedAt hlayout 0
  have hpos := layout.wordLength_pos
  have hlater := hlast.pos
  have hfollows := hsound.follows
  have hinitial := hfollows
  simp only [pipelineRules, List.flatten_append, List.flatten_cons,
    Program.follows_append, and_assoc] at hinitial
  obtain ⟨-, hinitial, -⟩ := hinitial
  have hfirst : [] ++ [generator.seedAt 0] <+:
      generator.seeds (last + 1) :=
    generator.seeds_prefix (show 1 ≤ last + 1 by omega)
  have hdetected := detect_running hinitial
    (running_between (generator.nodup_seeds_one) .scanInitial hseed
      List.nil_prefix (generator.leftPadding + layout.wordLength)
      generator.historyReserve) hseed (by simp) hfirst
  have hpadding : copyPadding (generator.leftPadding + layout.wordLength)
      (if 0 = 0 then [] else generator.seedAt 0) (generator.seedAt 0) =
        generator.leftPadding - 1 + 1 := by
    rw [if_pos rfl, copyPadding, hseed, List.length_nil]
    omega
  have hrounds := rounds_running hlayout hfollows hlast (last - 1) 0
    (by omega) hpadding
    (generator.historyReserve - (layout.wordLength + 1))
  rw [if_neg List.not_mem_nil] at hdetected
  rw [Nat.sub_sub, Nat.add_comm (layout.wordLength + 1), ← Nat.succ_mul,
    Nat.sub_add_cancel hlater, if_pos rfl] at hrounds
  have hblanks : generator.leftPadding - 1 + 1 =
      max generator.leftPadding 1 := by omega
  rw [hblanks] at hrounds
  exact (start_running hlayout hsound).trans (hdetected.trans hrounds)

end Run

end XorOrbit.Synthesis
