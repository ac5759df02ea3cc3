import XorOrbit.Proofs.Pipeline.Correctness
import XorOrbit.Proofs.Program.Preserve

/-!
# The log only grows

At any time of a run the tape keeps its layout: one seed start, one seed end,
a whole seed between them, and a log whose finished entries are the first seeds
of the generator.  No step overwrites a separator, so the number of finished
entries never gets smaller and earlier logs are prefixes of later ones.
-/

namespace XorOrbit

namespace Synthesis

/-! ## Separators stay in place -/

section Preserving

variable (start done fresh repeated : String) (offset : Int)
  (layout : Layout) (ns : Namespace)

theorem preserving_copySeed : Preserving (copySeedRules start done ns) := by
  simp [copySeedRules, copyBitRules, Symbol.bits]

theorem preserving_walk {visitRules : Visit → List Rule}
    (hvisits : ∀ visit, Preserving (visitRules visit)) :
    Preserving
      (ScratchWalk.walkRules start done layout ns visitRules) := by
  have hbits (index : Nat) :
      Preserving (ScratchWalk.bitRules start layout ns index) := by
    simp only [ScratchWalk.bitRules, preserving_append, preserving_mark,
      preserving_cons, preserving_nil, preserving_findMark, implies_true,
      and_true]
    split
    · exact preserving_pass
    · exact preserving_nil
  simp only [ScratchWalk.walkRules, preserving_append, preserving_flatMap]
  refine ⟨fun visit _ => ⟨?_, hvisits visit⟩, ?_⟩
  · simp only [ScratchWalk.approachRules, ScratchWalk.carryRules,
      preserving_append, preserving_pass, preserving_cons, preserving_nil,
      implies_true, and_true]
    split
    · exact preserving_nil
    · exact hbits visit.index
  · simp [ScratchWalk.homeRules]

theorem preserving_seek (visit : Visit) (distance : Nat) :
    Preserving (seekRules ns visit distance) := by
  simp [seekRules, preserving_flatMap]

theorem preserving_xorOffset :
    Preserving (xorOffsetRules start done offset layout ns) := by
  apply preserving_walk
  intro visit
  rw [xorVisitRules]
  split
  · exact preserving_cross
  · simp [preserving_seek]

theorem preserving_commitSeed :
    Preserving (commitSeedRules start done layout ns) := by
  apply preserving_walk
  intro visit
  simp [commitVisitRules, preserving_seek, Symbol.bits]

theorem preserving_detectRepeat :
    Preserving (DetectRepeat.detectRepeatRules start fresh repeated layout
      ns) := by
  have happend (index : Nat) :
      Preserving (DetectRepeat.appendBitRules layout ns index) := by
    simp [DetectRepeat.appendBitRules]
  have hprobe (index : Nat) :
      Preserving (DetectRepeat.probeRules layout ns index) := by
    simp [DetectRepeat.probeRules, DetectRepeat.probeSeedRules,
      preserving_flatMap]
  simp [DetectRepeat.detectRepeatRules, DetectRepeat.enterRules,
    DetectRepeat.appendRules, DetectRepeat.compareRules,
    DetectRepeat.verdictRules, preserving_flatMap, happend, hprobe]

/-- No rule of the program overwrites a separator. -/
theorem preserving_pipeline (generator : Generator) :
    Preserving (pipelineRules generator layout).flatten := by
  have hstage (stage : Stage) :
      Preserving (stageRules layout stage).flatten := by
    simp [stageRules, preserving_xorOffset, preserving_commitSeed]
  simp [pipelineRules, stages_eq, startRules, preserving_copySeed,
    preserving_detectRepeat, hstage]

end Preserving

/-! ## What the layout says about the cells -/

section Guarded

variable {seed : Word} {opening : List Char}

theorem opening_subset (hopening : DetectRepeat.Opening seed opening) :
    opening ⊆ Symbol.bits ++ [Symbol.openEntryEnd] := by
  rcases hopening with hprefix | rfl
  · exact List.Subset.trans hprefix.subset (by simp)
  · simp [List.append_subset]

theorem count_opening (hopening : DetectRepeat.Opening seed opening)
    {symbol : Char} (hsymbol : symbol ∉ Symbol.bits ++ [Symbol.openEntryEnd]) :
    opening.count symbol = 0 :=
  List.count_eq_zero.mpr fun hmem => hsymbol (opening_subset hopening hmem)

theorem count_openEntryEnd_le
    (hopening : DetectRepeat.Opening seed opening) :
    opening.count Symbol.openEntryEnd ≤ 1 := by
  have hseed : seed.cells.count Symbol.openEntryEnd = 0 :=
    List.count_eq_zero.mpr (seed.notMem_cells (by decide))
  rcases hopening with hprefix | rfl
  · have hle := hprefix.sublist.count_le Symbol.openEntryEnd
    omega
  · simp [hseed]

theorem subset_of_map_unmark {marked : List Char}
    (hmarked : marked.map Symbol.unmark = seed.cells) :
    marked ⊆ Symbol.bits ++ Symbol.marks := by
  intro symbol hsymbol
  by_contra hother
  have hmem : Symbol.unmark symbol ∈ seed.cells :=
    hmarked ▸ List.mem_map_of_mem hsymbol
  rw [(Symbol.unmark_eq_iff hother).mpr rfl] at hmem
  exact hother (List.mem_append_left _ (seed.cells_subset_bits hmem))

/-- Reading markers as bits puts no other symbols on the tape. -/
theorem notMem_map_unmark {row : List Char} {symbol : Char}
    (hrow : row ⊆ Symbol.blank :: Symbol.bits ++ Symbol.marks)
    (hsymbol : symbol ∉ Symbol.blank :: Symbol.bits ++ Symbol.marks) :
    symbol ∉ row.map Symbol.unmark := by
  intro hmem
  obtain ⟨cell, hcell, hunmark⟩ := List.mem_map.mp hmem
  have hother : symbol ∉ Symbol.bits ++ Symbol.marks :=
    fun h => hsymbol (List.mem_cons_of_mem _ h)
  rw [Symbol.unmark_eq_iff hother] at hunmark
  exact hsymbol (hrow (hunmark ▸ hcell))

variable {length : Nat} {reference : List Word} {cells : List Char}

/-- The finished entries are read back, and other symbols than blanks, bits and
markers only stand where the layout says. -/
theorem Guarded.read_back (hguarded : Guarded length reference cells) :
    ∃ (scratch marked log opening : List Char) (seed : Word)
        (entries : List Word),
      cells = scratch ++ Symbol.seedStart :: marked ++
          Symbol.seedEnd :: log ∧
        marked.map Symbol.unmark = seed.cells ∧ seed.length = length ∧
        entries <+: reference ∧ DetectRepeat.Opening seed opening ∧
        Regions.finished cells = entries.map Word.cells ∧
        Regions.unfinished cells = opening ∧
        ∀ symbol ∉ Symbol.blank :: Symbol.bits ++ Symbol.marks,
          cells.count symbol =
            [Symbol.seedStart, Symbol.seedEnd].count symbol +
              (logCells entries).count symbol + opening.count symbol := by
  obtain ⟨scratch, marked, log, opening, seed, entries, reserve, hscratch,
    hmarked, hseed, hlog, hentries, hopening, rfl⟩ := hguarded
  have hcells : (scratch ++ Symbol.seedStart :: marked ++
      Symbol.seedEnd :: log).map Symbol.unmark =
        scratch.map Symbol.unmark ++ Symbol.seedStart :: seed.cells ++
          Symbol.seedEnd :: (logCells entries ++
            (opening ++ blanks reserve)) := by
    simp [hmarked, hlog]
  have hplain : ∀ row ⊆ Symbol.blank :: Symbol.bits,
      ∀ symbol ∉ Symbol.blank :: Symbol.bits ++ Symbol.marks,
        symbol ∉ row :=
    fun row hrow symbol hsymbol hmem =>
      hsymbol (List.mem_append_left Symbol.marks (hrow hmem))
  have hleft : Symbol.seedEnd ∉
      scratch.map Symbol.unmark ++ Symbol.seedStart :: seed.cells := by
    simp only [List.mem_append, List.mem_cons, not_or]
    exact ⟨notMem_map_unmark hscratch (by decide), by decide,
      seed.notMem_cells (by decide)⟩
  have hsubset := opening_subset hopening
  have hfinished := Regions.finished_eq hcells hleft
    (fun hmem => absurd (hsubset hmem) (by decide))
  have hunfinished := Regions.unfinished_eq hcells hleft
    (fun hmem => absurd (hsubset hmem) (by decide))
    (fun hmem => absurd (hsubset hmem) (by decide))
  refine ⟨scratch, marked, log, opening, seed, entries, rfl, hmarked, hseed,
    hentries, hopening, hfinished, hunfinished, ?_⟩
  intro symbol hsymbol
  rw [← Symbol.count_map_unmark (fun hmem => hsymbol
    (List.mem_cons_of_mem _ hmem)), hcells]
  simp only [List.count_append, List.count_cons, List.count_nil,
    List.count_eq_zero.mpr (notMem_map_unmark hscratch hsymbol),
    List.count_eq_zero.mpr (hplain seed.cells (by simp) symbol hsymbol),
    List.count_eq_zero.mpr (hplain (blanks reserve) (by simp) symbol hsymbol)]
  omega

/-- Each finished entry has one terminator. -/
theorem count_entryEnd_logCells (entries : List Word) :
    (logCells entries).count Symbol.entryEnd = entries.length := by
  induction entries with
  | nil => rfl
  | cons entry entries ih =>
      have hentry : entry.cells.count Symbol.entryEnd = 0 :=
        List.count_eq_zero.mpr (entry.notMem_cells (by decide))
      simp [ih, hentry]

theorem count_logCells {symbol : Char} (entries : List Word)
    (hsymbol : symbol ∉ Symbol.bits ++ [Symbol.entryEnd]) :
    (logCells entries).count symbol = 0 := by
  have hsubset : logCells entries ⊆ Symbol.bits ++ [Symbol.entryEnd] := by
    simp
  exact List.count_eq_zero.mpr fun hmem => hsymbol (hsubset hmem)

/-- The tape has its separators, a seed of the right length and a log whose
finished entries are the first words of the reference sequence; what follows
them is a part of the seed. -/
structure LaidOut (length : Nat) (reference : List Word)
    (cells : List Char) : Prop where
  count_seedStart : cells.count Symbol.seedStart = 1
  count_seedEnd : cells.count Symbol.seedEnd = 1
  count_openEntryEnd : cells.count Symbol.openEntryEnd ≤ 1
  seed : ∃ scratch marked log : List Char,
    cells = scratch ++ Symbol.seedStart :: marked ++
        Symbol.seedEnd :: log ∧
      marked.length = length ∧ marked ⊆ Symbol.bits ++ Symbol.marks ∧
      (Regions.unfinished cells <+: marked.map Symbol.unmark ∨
        Regions.unfinished cells =
          marked.map Symbol.unmark ++ [Symbol.openEntryEnd])
  length_finished : ∀ entry ∈ Regions.finished cells, entry.length = length
  isPrefix_finished :
    Regions.finished cells <+: reference.map Word.cells

theorem Guarded.laidOut (hguarded : Guarded length reference cells)
    (hreference : ∀ word ∈ reference, word.length = length) :
    LaidOut length reference cells := by
  obtain ⟨scratch, marked, log, opening, seed, entries, hcells, hmarked,
    hseed, hentries, hopening, hfinished, hunfinished, hcount⟩ :=
    hguarded.read_back
  refine ⟨?_, ?_, ?_, ?_, ?_, ?_⟩
  · rw [hcount _ (by decide), count_logCells _ (by decide),
      count_opening hopening (by decide)]
    decide
  · rw [hcount _ (by decide), count_logCells _ (by decide),
      count_opening hopening (by decide)]
    decide
  · have hseparators :
        [Symbol.seedStart, Symbol.seedEnd].count Symbol.openEntryEnd = 0 := by
      decide
    rw [hcount _ (by decide), count_logCells _ (by decide), hseparators]
    simpa using count_openEntryEnd_le hopening
  · have hlength : marked.length = length := by
      rw [← List.length_map Symbol.unmark, hmarked, Word.length_cells, hseed]
    refine ⟨scratch, marked, log, hcells, hlength,
      subset_of_map_unmark hmarked, ?_⟩
    rw [hunfinished, hmarked]
    exact hopening
  · rw [hfinished]
    intro cells hcells
    obtain ⟨entry, hentry, rfl⟩ := List.mem_map.mp hcells
    rw [Word.length_cells]
    exact hreference entry (hentries.subset hentry)
  · rw [hfinished]
    exact hentries.map _

/-- There are as many finished entries as terminators. -/
theorem Guarded.length_finished
    (hguarded : Guarded length reference cells) :
    (Regions.finished cells).length = cells.count Symbol.entryEnd := by
  obtain ⟨_, _, _, opening, _, entries, -, -, -, -, hopening, hfinished, -,
    hcount⟩ := hguarded.read_back
  have hseparators :
      [Symbol.seedStart, Symbol.seedEnd].count Symbol.entryEnd = 0 := by
    decide
  rw [hcount _ (by decide), count_entryEnd_logCells,
    count_opening hopening (by decide), hseparators, hfinished,
    List.length_map]
  omega

end Guarded

/-! ## Growth -/

section Growth

variable {generator : Generator} {layout : Layout} {table : Table}
  (hsound : Sound generator layout table)
include hsound

/-- A rule that reads a separator writes it again. -/
theorem Sound.write_eq {state : String} {symbol : Char}
    {transition : Transition}
    (htransition : (assemble generator layout table).transition? state
      symbol = some transition)
    (hsymbol : symbol ∈ Symbol.separators) : transition.write = symbol :=
  preserving_pipeline layout generator _ (hsound.exists_rule htransition)
    hsymbol

/-- A step leaves the number of terminators as it is or makes it larger. -/
theorem Sound.count_after_le {steps later : Nat} (hle : steps ≤ later) :
    ((Machine.new (assemble generator layout table)).after
        steps).tape.cells.count Symbol.entryEnd ≤
      ((Machine.new (assemble generator layout table)).after
        later).tape.cells.count Symbol.entryEnd := by
  induction later, hle using Nat.le_induction with
  | base => exact Nat.le_refl _
  | succ later _ ih =>
      refine Nat.le_trans ih ?_
      simp only [Machine.after_succ, Machine.tape]
      cases hrule : ((Machine.new (assemble generator layout table)).after
          later).current.transition? ((Machine.new
            (assemble generator layout table)).after later).program with
      | none => rw [(Machine.step_of_stuck hrule).2]
      | some transition =>
          rw [(Machine.step_of_transition? hrule).2]
          rw [Machine.program_after] at hrule
          apply Configuration.count_apply
          intro hread
          rw [Configuration.transition?, hread] at hrule
          exact hsound.write_eq hrule (by decide)

end Growth

end Synthesis

open Synthesis

namespace Generator

/-- At any time the tape keeps its layout, the next step overwrites no
separator, and no later step takes back a finished entry. -/
theorem log_only_grows (generator : Generator) (hword : generator.HasWord) :
    ∃ (program : Program) (words : List Word),
      generator.synthesize = .ok program ∧
      generator.reference = .ok words ∧
      ∀ steps,
        LaidOut generator.wordLength words
          ((Machine.new program).after steps).tape.cells ∧
        (∀ transition,
          ((Machine.new program).after steps).transition? =
              some transition →
            ((Machine.new program).after steps).symbol ∈
                Symbol.separators →
              transition.write =
                ((Machine.new program).after steps).symbol) ∧
        ∀ later, steps ≤ later →
          Regions.finished ((Machine.new program).after steps).tape.cells <+:
            Regions.finished
              ((Machine.new program).after later).tape.cells := by
  obtain ⟨layout, hlayout, hlength⟩ := hword.exists_layout
  obtain ⟨table, hsound⟩ := exists_sound generator layout
  obtain ⟨last, hlast, hreference⟩ := exists_reference_eq hlayout
  have hguarded (steps : Nat) :=
    (running_after hlayout hsound hlast steps).guarded
  have hlaidOut (steps : Nat) := (hguarded steps).laidOut
    (fun _ hword => length_of_mem_seeds hlayout hword)
  refine ⟨_, _, hsound.synthesize_eq hlayout, hreference,
    fun steps => ⟨?_, ?_, ?_⟩⟩
  · rw [← hlength]
    exact hlaidOut steps
  · intro transition htransition hsymbol
    rw [Machine.transition?, Machine.program_after] at htransition
    exact hsound.write_eq htransition hsymbol
  · intro later hle
    refine List.prefix_of_prefix_length_le (hlaidOut steps).isPrefix_finished
      (hlaidOut later).isPrefix_finished ?_
    rw [(hguarded steps).length_finished, (hguarded later).length_finished]
    exact hsound.count_after_le hle

theorem log_only_grows_two_bits :
    (new "10" 1 1 1).HasWord ∧
      ∃ program, (new "10" 1 1 1).synthesize = .ok program ∧
        ∀ steps, LaidOut 2 [[true, false], [false, true], [true, false]]
          ((Machine.new program).after steps).tape.cells := by
  have hword : (new "10" 1 1 1).HasWord := by decide
  obtain ⟨program, words, hprogram, hreference, hsteps⟩ :=
    log_only_grows _ hword
  have hwords : (new "10" 1 1 1).reference =
      .ok [[true, false], [false, true], [true, false]] := by
    decide
  obtain rfl := Except.ok.inj (hwords.symm.trans hreference)
  exact ⟨hword, program, hprogram, fun steps => (hsteps steps).1⟩

end Generator

end XorOrbit
