import XorOrbit.Proofs.CopySeed.Trace
import XorOrbit.Proofs.DetectRepeat.Trace
import XorOrbit.Proofs.Generator
import XorOrbit.Proofs.ScratchWalk.Trace
import XorOrbit.Synthesis.Pipeline

/-!
# What holds throughout a run

Between two subroutines the tape holds a scratch word, a seed and a log, which
`Between` gives for each of the states there.  Inside a subroutine only less is
known: `Guarded` says what is left of the layout when some bits are marked and
an entry is being appended.
-/

namespace XorOrbit.Synthesis

/-- The cells of a tape on which nothing is marked and no entry is open. -/
def tapeCells (scratch seed : Word) (entries : List Word)
    (padding reserve : Nat) : List Char :=
  blanks padding ++ scratch.cells ++ Symbol.seedStart :: seed.cells ++
    Symbol.seedEnd :: (logCells entries ++ blanks reserve)

/-- There are only blanks. -/
def Blank (cells : List Char) : Prop := cells ⊆ [Symbol.blank]

/-- The scratch word, the seed and the log in the states between the
subroutines, while the successor of the seed with the given index is
computed. -/
inductive Between (generator : Generator) (index : Nat) :
    String → Word → Word → List Word → Prop
  | start : Between generator index startState [] (generator.seedAt 0) []
  | scanInitial :
      Between generator index "scan_initial" [] (generator.seedAt 0) []
  | cycle : Between generator index "cycle"
      (if index = 0 then [] else generator.seedAt index)
      (generator.seedAt index) (generator.seeds (index + 1))
  | shiftA : Between generator index "shift_a" (generator.seedAt index)
      (generator.seedAt index) (generator.seeds (index + 1))
  | commitA : Between generator index "commit_a"
      (generator.stepA (generator.seedAt index))
      (generator.seedAt index) (generator.seeds (index + 1))
  | shiftB : Between generator index "shift_b"
      (generator.stepA (generator.seedAt index))
      (generator.stepA (generator.seedAt index))
      (generator.seeds (index + 1))
  | commitB : Between generator index "commit_b"
      (generator.stepB (generator.stepA (generator.seedAt index)))
      (generator.stepA (generator.seedAt index))
      (generator.seeds (index + 1))
  | shiftC : Between generator index "shift_c"
      (generator.stepB (generator.stepA (generator.seedAt index)))
      (generator.stepB (generator.stepA (generator.seedAt index)))
      (generator.seeds (index + 1))
  | commitC : Between generator index "commit_c"
      (generator.seedAt (index + 1))
      (generator.stepB (generator.stepA (generator.seedAt index)))
      (generator.seeds (index + 1))
  | scan : Between generator index "scan" (generator.seedAt (index + 1))
      (generator.seedAt (index + 1)) (generator.seeds (index + 1))
  | found :
      generator.seedAt (index + 1) ∈ generator.seeds (index + 1) →
      Between generator index acceptState (generator.seedAt (index + 1))
        (generator.seedAt (index + 1)) (generator.seeds (index + 2))

/-- The seed and the entries have the length of a word. -/
theorem Between.length_eq {generator : Generator} {layout : Layout}
    (hlayout : generator.validate = .ok layout) {index : Nat}
    {state : String} {scratch seed : Word} {entries : List Word}
    (hbetween : Between generator index state scratch seed entries) :
    seed.length = layout.wordLength ∧
      ∀ entry ∈ entries, entry.length = layout.wordLength := by
  have hseed (index : Nat) := Generator.length_seedAt hlayout index
  have hentries (count : Nat) : ∀ entry ∈ generator.seeds count,
      entry.length = layout.wordLength :=
    fun _ => Generator.length_of_mem_seeds hlayout
  cases hbetween with
  | start => exact ⟨hseed 0, by simp⟩
  | scanInitial => exact ⟨hseed 0, by simp⟩
  | cycle => exact ⟨hseed index, hentries _⟩
  | shiftA => exact ⟨hseed index, hentries _⟩
  | commitA => exact ⟨hseed index, hentries _⟩
  | shiftB => exact ⟨by simpa using hseed index, hentries _⟩
  | commitB => exact ⟨by simpa using hseed index, hentries _⟩
  | shiftC => exact ⟨by simpa using hseed index, hentries _⟩
  | commitC => exact ⟨by simpa using hseed index, hentries _⟩
  | scan => exact ⟨hseed (index + 1), hentries _⟩
  | found => exact ⟨hseed (index + 1), hentries _⟩

/-- In the accepting state the last entry has been in the log before. -/
theorem Between.found_of_acceptState {generator : Generator} {index : Nat}
    {scratch seed : Word} {entries : List Word}
    (hbetween : Between generator index acceptState scratch seed entries) :
    generator.seedAt (index + 1) ∈ generator.seeds (index + 1) ∧
      scratch = generator.seedAt (index + 1) ∧
      seed = generator.seedAt (index + 1) ∧
      entries = generator.seeds (index + 2) := by
  generalize hstate : acceptState = state at hbetween
  cases hbetween
  case found hmem => exact ⟨hmem, rfl, rfl, rfl⟩
  all_goals exact absurd hstate (by decide)

/-- The layout of the tape at any time: up to markers, the log consists of
finished entries and of a part of the seed, which is closed with the open
terminator only when it is the whole seed. -/
def Guarded (length : Nat) (reference : List Word) (cells : List Char) :
    Prop :=
  ∃ (scratch marked log opening : List Char) (seed : Word)
      (entries : List Word) (reserve : Nat),
    scratch ⊆ Symbol.blank :: Symbol.bits ++ Symbol.marks ∧
      marked.map Symbol.unmark = seed.cells ∧ seed.length = length ∧
      log.map Symbol.unmark =
        logCells entries ++ opening ++ blanks reserve ∧
      entries <+: reference ∧ DetectRepeat.Opening seed opening ∧
      cells = scratch ++ Symbol.seedStart :: marked ++
        Symbol.seedEnd :: log

/-- What holds in every configuration of a run. -/
structure Running (generator : Generator) (layout : Layout)
    (reference : List Word) (state : String) (cells : List Char) :
    Prop where
  guarded : Guarded layout.wordLength reference cells
  /-- Between the subroutines the words are the ones that the shifts give, and
  the seeds up to the current one are distinct. -/
  between : '.' ∉ state.toList → ∃ index scratch seed entries padding reserve,
    (generator.seeds (index + 1)).Nodup ∧
      Between generator index state scratch seed entries ∧
      cells = tapeCells scratch seed entries padding reserve

section Guarded

variable {length : Nat} {reference : List Word} {seed : Word}
  {entries : List Word}

/-- A state inside a subroutine has a dot. -/
theorem dot_mem_of_owns {ns : Namespace} {state : String}
    (howns : ns.Owns state) : '.' ∈ state.toList := by
  by_contra hdot
  exact Namespace.not_owns_of_notMem hdot howns

theorem guarded_tapeCells (scratch : Word) (hseed : seed.length = length)
    (hentries : entries <+: reference) (padding reserve : Nat) :
    Guarded length reference
      (tapeCells scratch seed entries padding reserve) :=
  ⟨blanks padding ++ scratch.cells, seed.cells,
    logCells entries ++ blanks reserve, [], seed, entries, reserve,
    by simp [List.append_subset], seed.map_unmark_cells, hseed, by simp,
    hentries, Or.inl List.nil_prefix, rfl⟩

end Guarded

section Running

variable {generator : Generator} {layout : Layout} {reference : List Word}
  {state start : String} {cells : List Char} {index : Nat}
  {scratch seed : Word} {entries : List Word}

/-- Between two subroutines. -/
theorem running_between (hnodup : (generator.seeds (index + 1)).Nodup)
    (hbetween : Between generator index state scratch seed entries)
    (hseed : seed.length = layout.wordLength)
    (hentries : entries <+: reference) (padding reserve : Nat) :
    Running generator layout reference state
      (tapeCells scratch seed entries padding reserve) where
  guarded := guarded_tapeCells scratch hseed hentries padding reserve
  between := fun _ => ⟨index, scratch, seed, entries, padding, reserve, hnodup,
    hbetween, rfl⟩

/-- Inside a subroutine. -/
theorem running_inside {ns : Namespace} (howns : ns.Owns state)
    (hguarded : Guarded layout.wordLength reference cells) :
    Running generator layout reference state cells where
  guarded := hguarded
  between := fun hdot => absurd (dot_mem_of_owns howns) hdot

/-- While the seed is copied, the log is as it was. -/
theorem running_of_copying {ns : Namespace} {original right : List Char}
    (hstart : Running generator layout reference start original)
    (hseed : seed.length = layout.wordLength)
    (hentries : entries <+: reference) {reserve : Nat}
    (hright : right = logCells entries ++ blanks reserve)
    (hcopying : Copying start ns seed original right state cells) :
    Running generator layout reference state cells := by
  rcases hcopying with ⟨rfl, rfl⟩ | ⟨howns, left, marked, hleft, hmarked, rfl⟩
  · exact hstart
  · refine running_inside howns ⟨left, marked, right, [], seed, entries,
      reserve, ?_, hmarked, hseed, ?_, hentries, Or.inl List.nil_prefix, rfl⟩
    · exact List.Subset.trans hleft (by simp)
    · simp [hright]

/-- While the head walks over the scratch word, the log is as it was. -/
theorem running_of_walking {ns : Namespace} {valid : Word → Prop}
    {length : Nat} {original right : List Char}
    (hstart : Running generator layout reference start original)
    (hvalid : ∀ seed, valid seed → seed.length = layout.wordLength)
    (hentries : entries <+: reference) {reserve : Nat}
    (hright : right =
      Symbol.seedEnd :: (logCells entries ++ blanks reserve))
    (hwalking : ScratchWalk.Walking start ns valid length original right
      Blank state cells) :
    Running generator layout reference state cells := by
  rcases hwalking with ⟨rfl, rfl⟩ | ⟨howns, left, marked, seed, hleft, -,
    hmarked, hseed, rfl⟩
  · exact hstart
  · refine running_inside howns ⟨left ++ marked, seed.cells,
      logCells entries ++ blanks reserve, [], seed, entries, reserve, ?_,
      seed.map_unmark_cells, hvalid seed hseed, by simp, hentries,
      Or.inl List.nil_prefix, by simp [hright]⟩
    rw [List.append_subset]
    exact ⟨List.Subset.trans hleft (by simp),
      List.Subset.trans hmarked (by simp)⟩

/-- While a repeat is looked for, the log may be extended by the seed. -/
theorem running_of_detecting {ns : Namespace}
    {before original : List Char}
    (hstart : Running generator layout reference start original)
    (hseed : seed.length = layout.wordLength)
    (hbefore : before ⊆ Symbol.blank :: Symbol.bits)
    (hentries : entries ++ [seed] <+: reference)
    (hdetecting : DetectRepeat.Detecting start ns before seed entries
      original state cells) :
    Running generator layout reference state cells := by
  rcases hdetecting with ⟨rfl, rfl⟩ | ⟨howns, marked, log, opening, logged,
    reserve, hmarked, hlog, hlogged, rfl⟩
  · exact hstart
  · have hleft : before ⊆ Symbol.blank :: Symbol.bits ++ Symbol.marks :=
      List.Subset.trans hbefore (by simp)
    refine running_inside howns ⟨before, marked, log, opening, seed, logged,
      reserve, hleft, hmarked, hseed, hlog, ?_, ?_, rfl⟩
    · rcases hlogged with ⟨rfl, -⟩ | ⟨rfl, -⟩
      · exact (List.prefix_append _ _).trans hentries
      · exact hentries
    · rcases hlogged with ⟨-, hopening⟩ | ⟨-, rfl⟩
      · exact hopening
      · exact Or.inl List.nil_prefix

end Running

end XorOrbit.Synthesis
