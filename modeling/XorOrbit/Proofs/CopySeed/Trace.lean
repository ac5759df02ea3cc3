import XorOrbit.Proofs.Namespace
import XorOrbit.Proofs.Run.Trace
import XorOrbit.Proofs.Tape.Row
import XorOrbit.Synthesis.CopySeed

/-!
# The run of the copy

The seed is copied from its last bit to its first.  Before each round a suffix
of the seed has been copied: its bits are markers in the seed, and its copy
stands directly left of the seed start.  That is the invariant of
`copyLoop_trace`; what comes before and after the loop are plain sweeps.
-/

namespace XorOrbit.Synthesis

/-- The state that carries a bit across the seed start. -/
def copyCarryState (ns : Namespace) (bit : Bool) : String :=
  let b := Symbol.ofBit bit
  ns.state s!"carry_{b}"

/-- The state that drops a bit on the first blank. -/
def copyDropState (ns : Namespace) (bit : Bool) : String :=
  let b := Symbol.ofBit bit
  ns.state s!"drop_{b}"

theorem owns_copyCarryState (ns : Namespace) (bit : Bool) :
    ns.Owns (copyCarryState ns bit) :=
  ns.owns_state _

theorem owns_copyDropState (ns : Namespace) (bit : Bool) :
    ns.Owns (copyDropState ns bit) :=
  ns.owns_state _

/-- What holds while the copy runs: in the start state the tape is as it was,
and inside the copy it has some scratch cells, the seed with some of its bits
marked, and the log as it was. -/
def Copying (start : String) (ns : Namespace) (seed : Word)
    (original right : List Char) (state : String) (cells : List Char) :
    Prop :=
  (state = start ∧ cells = original) ∨
    (ns.Owns state ∧ ∃ scratch marked : List Char,
      scratch ⊆ Symbol.blank :: Symbol.bits ∧
        marked.map Symbol.unmark = seed.cells ∧
        cells = scratch ++ Symbol.seedStart :: marked ++
          Symbol.seedEnd :: right)

/-- What a program that has the rules of the copy does on each symbol that the
copy meets. -/
structure Copies (program : Program) (start done : String) (ns : Namespace) :
    Prop where
  enter : program.Passes start
    (Symbol.bits ++ [Symbol.blank, Symbol.seedStart]) .right
  turn : program.transition? start Symbol.seedEnd =
    some ⟨ns.state "seek_start", Symbol.seedEnd, .left⟩
  seek : program.Passes (ns.state "seek_start") Symbol.bits .left
  sought : program.transition? (ns.state "seek_start") Symbol.seedStart =
    some ⟨ns.state "clear", Symbol.seedStart, .left⟩
  clear : ∀ bit, program.transition? (ns.state "clear") (Symbol.ofBit bit) =
    some ⟨ns.state "clear", Symbol.blank, .left⟩
  cleared : program.transition? (ns.state "clear") Symbol.blank =
    some ⟨ns.state "to_end", Symbol.blank, .right⟩
  pass : program.Passes (ns.state "to_end")
    (Symbol.bits ++ [Symbol.blank, Symbol.seedStart] ++ Symbol.marks) .right
  passed : program.transition? (ns.state "to_end") Symbol.seedEnd =
    some ⟨ns.state "find", Symbol.seedEnd, .left⟩
  find : program.Passes (ns.state "find") Symbol.marks .left
  mark : ∀ bit, program.transition? (ns.state "find") (Symbol.ofBit bit) =
    some ⟨copyCarryState ns bit, Symbol.markOf bit, .left⟩
  found : program.transition? (ns.state "find") Symbol.seedStart =
    some ⟨ns.state "unmark", Symbol.seedStart, .right⟩
  carry : ∀ bit, program.Passes (copyCarryState ns bit) Symbol.bits .left
  cross : ∀ bit,
    program.transition? (copyCarryState ns bit) Symbol.seedStart =
      some ⟨copyDropState ns bit, Symbol.seedStart, .left⟩
  drop : ∀ bit, program.Passes (copyDropState ns bit) Symbol.bits .left
  write : ∀ bit, program.transition? (copyDropState ns bit) Symbol.blank =
    some ⟨ns.state "to_end", Symbol.ofBit bit, .right⟩
  unmark : ∀ bit,
    program.transition? (ns.state "unmark") (Symbol.markOf bit) =
      some ⟨ns.state "unmark", Symbol.ofBit bit, .right⟩
  unmarked : program.transition? (ns.state "unmark") Symbol.seedEnd =
    some ⟨ns.state "rewind", Symbol.seedEnd, .left⟩
  rewind : program.Passes (ns.state "rewind") Symbol.bits .left
  rewound : program.transition? (ns.state "rewind") Symbol.seedStart =
    some ⟨ns.state "home", Symbol.seedStart, .left⟩
  home : program.Passes (ns.state "home") Symbol.bits .left
  leave : program.transition? (ns.state "home") Symbol.blank =
    some ⟨done, Symbol.blank, .right⟩

theorem follows_copyBitRules {program : Program} {ns : Namespace} {bit : Bool}
    (hfollows : program.Follows (copyBitRules ns bit)) :
    program.Passes (copyCarryState ns bit) Symbol.bits .left ∧
      program.transition? (copyCarryState ns bit) Symbol.seedStart =
        some ⟨copyDropState ns bit, Symbol.seedStart, .left⟩ ∧
      program.Passes (copyDropState ns bit) Symbol.bits .left ∧
      program.transition? (copyDropState ns bit) Symbol.blank =
        some ⟨ns.state "to_end", Symbol.ofBit bit, .right⟩ := by
  simpa [copyBitRules, Rule.transition, copyCarryState, copyDropState,
    and_assoc] using hfollows

theorem copies_of_follows {program : Program} {start done : String}
    {ns : Namespace}
    (hfollows : program.Follows (copySeedRules start done ns)) :
    Copies program start done ns := by
  simp only [copySeedRules, Program.follows_append, Program.follows_travel,
    Program.follows_cons, Program.follows_nil, Program.follows_pass,
    Program.follows_mark, Program.follows_restore, and_true,
    and_assoc] at hfollows
  obtain ⟨henter, hturn, hseek, hsought, hclear, hcleared, hpass, hpassed,
    hfind, hmark, hfound, hcopy0, hcopy1, hunmark, hunmarked, hrewind,
    hrewound, hhome, hleave⟩ := hfollows
  have hcopy : ∀ bit, program.Follows (copyBitRules ns bit) := by
    intro bit
    cases bit with
    | false => exact hcopy0
    | true => exact hcopy1
  exact {
    enter := henter
    turn := hturn
    seek := hseek
    sought := hsought
    clear := fun bit =>
      hclear _ (List.mem_map_of_mem (Symbol.ofBit_mem_bits bit))
    cleared := hcleared
    pass := hpass
    passed := hpassed
    find := hfind
    mark := hmark
    found := hfound
    carry := fun bit => (follows_copyBitRules (hcopy bit)).1
    cross := fun bit => (follows_copyBitRules (hcopy bit)).2.1
    drop := fun bit => (follows_copyBitRules (hcopy bit)).2.2.1
    write := fun bit => (follows_copyBitRules (hcopy bit)).2.2.2
    unmark := hunmark
    unmarked := hunmarked
    rewind := hrewind
    rewound := hrewound
    home := hhome
    leave := hleave }

section Copy

variable {program : Program} {start done : String} {ns : Namespace}
  {seed : Word} {original right : List Char}

theorem copying_inside {state : String} (hstate : ns.Owns state)
    {scratch marked : List Char}
    (hscratch : scratch ⊆ Symbol.blank :: Symbol.bits)
    (hmarked : marked.map Symbol.unmark = seed.cells) :
    Copying start ns seed original right state
      (scratch ++ Symbol.seedStart :: marked ++
        Symbol.seedEnd :: right) :=
  Or.inr ⟨hstate, scratch, marked, hscratch, hmarked, rfl⟩

theorem blanks_cells_subset (count : Nat) (word : Word) :
    blanks count ++ word.cells ⊆ Symbol.blank :: Symbol.bits := by
  simp [List.append_subset]

/-- Stale scratch bits are turned into blanks from the last to the first. -/
theorem clear_trace
    (hcopies : Copies program start done ns)
    (seed : Word) (original right : List Char)
    (scratch : Word) (padding cleared : Nat) :
    Trace program (Copying start ns seed original right)
      ⟨ns.state "clear", .leftOf (blanks padding ++ scratch.cells)
        (blanks cleared ++ Symbol.seedStart :: seed.cells ++
          Symbol.seedEnd :: right)⟩
      ⟨ns.state "clear", .leftOf (blanks padding)
        (blanks (scratch.length + cleared) ++ Symbol.seedStart ::
          seed.cells ++ Symbol.seedEnd :: right)⟩ := by
  induction scratch using List.reverseRecOn generalizing cleared with
  | nil => simpa using Trace.refl _
  | append_singleton scratch bit ih =>
      have hscratch : blanks padding ++ Word.cells scratch ++
          Symbol.ofBit bit :: blanks cleared ⊆
            Symbol.blank :: Symbol.bits := by
        simp [List.append_subset]
      have hfirst := Trace.moveLeft (Copying start ns seed original right)
        (blanks padding ++ Word.cells scratch)
        (blanks cleared ++ Symbol.seedStart :: seed.cells ++ Symbol.seedEnd ::
          right) (hcopies.clear bit)
        (by simpa using copying_inside (ns.owns_state "clear") hscratch
              seed.map_unmark_cells)
      have hrest := ih (cleared + 1)
      simp only [Word.cells_append, Word.cells_cons, Word.cells_nil,
        ← List.append_assoc, Tape.leftOf_concat]
      rw [List.length_append, List.length_singleton, Nat.add_assoc,
        Nat.add_comm 1]
      simpa [blanks_succ] using hfirst.trans hrest

/-- One round: the last bit that is not marked yet is marked, carried across
the seed start and written in front of the copy. -/
theorem copyBit_trace
    (hcopies : Copies program start done ns) (original right : List Char)
    (kept copied : Word) (bit : Bool) (padding : Nat) :
    Trace program (Copying start ns (kept ++ bit :: copied) original right)
      ⟨ns.state "find", .leftOf (blanks padding ++ copied.cells ++
          Symbol.seedStart :: kept.cells ++ Symbol.ofBit bit ::
            copied.marks) (Symbol.seedEnd :: right)⟩
      ⟨ns.state "find", .leftOf (blanks (padding - 1) ++
          Word.cells (bit :: copied) ++ Symbol.seedStart :: kept.cells ++
            Word.marks (bit :: copied)) (Symbol.seedEnd :: right)⟩ := by
  have hscratch := blanks_cells_subset padding copied
  have hmarked : (kept.cells ++ Symbol.markOf bit :: copied.marks).map
      Symbol.unmark = Word.cells (kept ++ bit :: copied) := by simp
  have hunmarked : (kept.cells ++ Symbol.ofBit bit :: copied.marks).map
      Symbol.unmark = Word.cells (kept ++ bit :: copied) := by simp
  have hmade : blanks (padding - 1) ++ Symbol.blank :: copied.cells ⊆
      Symbol.blank :: Symbol.bits := by
    simp [List.append_subset]
  have hlonger := blanks_cells_subset (padding - 1) (bit :: copied)
  have hfound := Trace.leftThenLeft
    (Copying start ns (kept ++ bit :: copied) original right)
    (blanks padding ++ copied.cells ++ Symbol.seedStart :: kept.cells) _
    (Symbol.seedEnd :: right) hcopies.find copied.marks_subset_marks
    (hcopies.mark bit)
    (by simpa using copying_inside (ns.owns_state "find") hscratch
          hunmarked)
  have hcarried := Trace.leftThenLeft
    (Copying start ns (kept ++ bit :: copied) original right)
    (blanks padding ++ copied.cells) _
    (Symbol.markOf bit :: copied.marks ++ Symbol.seedEnd :: right)
    (hcopies.carry bit) kept.cells_subset_bits (hcopies.cross bit)
    (by simpa using copying_inside (owns_copyCarryState ns bit) hscratch
          hmarked)
  have hswept := Trace.sweepLeft
    (Copying start ns (kept ++ bit :: copied) original right) (blanks padding)
    _
    (Symbol.seedStart :: kept.cells ++ Symbol.markOf bit :: copied.marks ++
      Symbol.seedEnd :: right) (hcopies.drop bit) copied.cells_subset_bits
    (by simpa using copying_inside (owns_copyDropState ns bit) hscratch
          hmarked)
  have hwritten := Trace.moveRight
    (Copying start ns (kept ++ bit :: copied) original right)
    (blanks (padding - 1))
    (copied.cells ++ Symbol.seedStart :: kept.cells ++ Symbol.markOf bit ::
      copied.marks ++ Symbol.seedEnd :: right) (hcopies.write bit)
    (by simpa using copying_inside (owns_copyDropState ns bit) hmade
          hmarked)
  have hreturned := Trace.rightThenLeft
    (Copying start ns (kept ++ bit :: copied) original right)
    (blanks (padding - 1) ++ [Symbol.ofBit bit])
    (copied.cells ++ Symbol.seedStart :: kept.cells ++ Symbol.markOf bit ::
      copied.marks) right hcopies.pass (by simp [List.append_subset])
    hcopies.passed
    (by simpa using copying_inside (ns.owns_state "to_end") hlonger
          hmarked)
  rw [Tape.leftOf_blanks] at hswept
  simp only [List.append_assoc, List.cons_append, Word.cells_cons,
    Word.marks_cons, List.nil_append] at *
  exact hfound.trans (hcarried.trans (hswept.trans
    (hwritten.trans hreturned)))

/-- All rounds: the copy of the whole seed stands left of the seed start, and
all bits of the seed are marked. -/
theorem copyLoop_trace
    (hcopies : Copies program start done ns) (original right : List Char)
    (kept copied : Word) (padding : Nat) :
    Trace program (Copying start ns (kept ++ copied) original right)
      ⟨ns.state "find", .leftOf (blanks padding ++ copied.cells ++
          Symbol.seedStart :: kept.cells ++ copied.marks)
            (Symbol.seedEnd :: right)⟩
      ⟨ns.state "find", .leftOf (blanks (padding - kept.length) ++
          Word.cells (kept ++ copied) ++ Symbol.seedStart ::
            Word.marks (kept ++ copied)) (Symbol.seedEnd :: right)⟩ := by
  induction kept using List.reverseRecOn generalizing copied padding with
  | nil => simpa using Trace.refl _
  | append_singleton kept bit ih =>
      have hround := copyBit_trace hcopies original right kept copied bit
        padding
      have hrest := ih (bit :: copied) (padding - 1)
      rw [Nat.sub_sub, Nat.add_comm 1] at hrest
      simp only [List.append_assoc, List.cons_append, List.nil_append,
        Word.cells_append, Word.cells_cons, Word.cells_nil,
        List.length_append, List.length_singleton] at hround hrest ⊢
      exact hround.trans hrest

/-- The markers are turned back into bits from the first to the last. -/
theorem unmark_trace
    (hcopies : Copies program start done ns) (original right : List Char)
    {scratch : List Char} (hscratch : scratch ⊆ Symbol.blank :: Symbol.bits)
    (restored marked : Word) :
    Trace program (Copying start ns (restored ++ marked) original right)
      ⟨ns.state "unmark", .rightOf
        (scratch ++ Symbol.seedStart :: restored.cells)
        (marked.marks ++ Symbol.seedEnd :: right)⟩
      ⟨ns.state "unmark", .rightOf
        (scratch ++ Symbol.seedStart :: Word.cells (restored ++ marked))
        (Symbol.seedEnd :: right)⟩ := by
  induction marked generalizing restored with
  | nil => simpa using Trace.refl _
  | cons bit marked ih =>
      have hmarked : (restored.cells ++ Word.marks (bit :: marked)).map
          Symbol.unmark = Word.cells (restored ++ bit :: marked) := by simp
      have hfirst := Trace.moveRight
        (Copying start ns (restored ++ bit :: marked) original right)
        (scratch ++ Symbol.seedStart :: restored.cells)
        (Word.marks marked ++ Symbol.seedEnd :: right)
        (hcopies.unmark bit)
        (by simpa using copying_inside (ns.owns_state "unmark") hscratch
              hmarked)
      have hrest := ih (restored ++ [bit])
      simp only [List.append_assoc, List.cons_append, List.nil_append,
        Word.cells_append, Word.cells_cons, Word.cells_nil,
        Word.marks_cons] at hfirst hrest ⊢
      exact hfirst.trans hrest

/-- Before the loop: the head goes to the seed end and back, clears the old
scratch word and returns to the seed end. -/
theorem copyPrepare_trace
    (hcopies : Copies program start done ns)
    (scratch : Word) (padding : Nat) (right : List Char)
    {left row : List Char}
    (hrow : left ++ row =
      blanks padding ++ scratch.cells ++ Symbol.seedStart :: seed.cells) :
    Trace program
      (Copying start ns seed (left ++ row ++ Symbol.seedEnd :: right) right)
      ⟨start, .rightOf left (row ++ Symbol.seedEnd :: right)⟩
      ⟨ns.state "find", .leftOf
        (blanks (max padding 1 + scratch.length) ++
          Symbol.seedStart :: seed.cells) (Symbol.seedEnd :: right)⟩ := by
  have hsubset : row ⊆ Symbol.bits ++ [Symbol.blank, Symbol.seedStart] := by
    have hall : left ++ row ⊆
        Symbol.bits ++ [Symbol.blank, Symbol.seedStart] := by
      rw [hrow]
      simp [List.append_subset]
    exact (List.append_subset.mp hall).2
  have hblanks : blanks (padding - 1) ++ Symbol.blank ::
      blanks scratch.length = blanks (max padding 1 + scratch.length) := by
    rw [← blanks_append_blanks, blanks_max_one, List.append_assoc]
    rfl
  have hcells (count : Nat) (state : String) (hstate : ns.Owns state) :
      Copying start ns seed (left ++ row ++ Symbol.seedEnd :: right) right
        state (blanks count ++ Symbol.seedStart :: seed.cells ++
          Symbol.seedEnd :: right) :=
    copying_inside hstate (by simp) seed.map_unmark_cells
  have hentered := Trace.rightThenLeft
    (Copying start ns seed (left ++ row ++ Symbol.seedEnd :: right) right)
    left _ right hcopies.enter hsubset hcopies.turn (Or.inl ⟨rfl, rfl⟩)
  have hsought := Trace.leftThenLeft
    (Copying start ns seed (left ++ row ++ Symbol.seedEnd :: right) right)
    (blanks padding ++ scratch.cells) _ (Symbol.seedEnd :: right)
    hcopies.seek seed.cells_subset_bits hcopies.sought
    (by simpa using copying_inside (ns.owns_state "seek_start")
          (blanks_cells_subset padding scratch) seed.map_unmark_cells)
  have hcleared := clear_trace hcopies seed
    (left ++ row ++ Symbol.seedEnd :: right) right scratch padding 0
  have hturned := Trace.moveRight
    (Copying start ns seed (left ++ row ++ Symbol.seedEnd :: right) right)
    (blanks (padding - 1))
    (blanks scratch.length ++ Symbol.seedStart :: seed.cells ++
      Symbol.seedEnd :: right) hcopies.cleared
    (by simpa [← hblanks] using hcells
          (max padding 1 + scratch.length) _ (ns.owns_state "clear"))
  have hreturned := Trace.rightThenLeft
    (Copying start ns seed (left ++ row ++ Symbol.seedEnd :: right) right)
    (blanks (padding - 1) ++ [Symbol.blank])
    (blanks scratch.length ++ Symbol.seedStart :: seed.cells) right
    hcopies.pass (by simp [List.append_subset]) hcopies.passed
    (by simpa [← hblanks] using hcells
          (max padding 1 + scratch.length) _ (ns.owns_state "to_end"))
  rw [hrow] at hentered ⊢
  rw [hrow] at hsought hcleared hturned hreturned
  rw [Tape.leftOf_blanks] at hcleared
  simp only [List.append_assoc, List.cons_append, List.nil_append,
    blanks_zero, Nat.add_zero, ← hblanks] at *
  exact hentered.trans (hsought.trans (hcleared.trans
    (hturned.trans hreturned)))

/-- After the loop: the markers are turned back and the head goes to the first
scratch bit. -/
theorem copyFinish_trace
    (hcopies : Copies program start done ns)
    (seed : Word) (original right : List Char)
    (padding : Nat) :
    Trace program (Copying start ns seed original right)
      ⟨ns.state "find", .leftOf (blanks padding ++ seed.cells ++
        Symbol.seedStart :: seed.marks) (Symbol.seedEnd :: right)⟩
      ⟨done, .rightOf (blanks (max padding 1))
        (seed.cells ++ Symbol.seedStart :: seed.cells ++
          Symbol.seedEnd :: right)⟩ := by
  have hscratch := blanks_cells_subset padding seed
  have hmade : blanks (padding - 1) ++ Symbol.blank :: seed.cells ⊆
      Symbol.blank :: Symbol.bits := by
    simp [List.append_subset]
  have hmarks := Trace.leftThenRight (Copying start ns seed original right)
    (blanks padding ++ seed.cells) _ (Symbol.seedEnd :: right)
    hcopies.find seed.marks_subset_marks hcopies.found
    (by simpa using copying_inside (ns.owns_state "find") hscratch
          seed.map_unmark_marks)
  have hrestored := unmark_trace hcopies original right hscratch [] seed
  have hturned := Trace.moveLeft (Copying start ns seed original right)
    (blanks padding ++ seed.cells ++ Symbol.seedStart :: seed.cells) right
    hcopies.unmarked
    (by simpa using copying_inside (ns.owns_state "unmark") hscratch
          seed.map_unmark_cells)
  have hrewound := Trace.leftThenLeft (Copying start ns seed original right)
    (blanks padding ++ seed.cells) _ (Symbol.seedEnd :: right)
    hcopies.rewind seed.cells_subset_bits hcopies.rewound
    (by simpa using copying_inside (ns.owns_state "rewind") hscratch
          seed.map_unmark_cells)
  have hswept := Trace.sweepLeft (Copying start ns seed original right)
    (blanks padding) _
    (Symbol.seedStart :: seed.cells ++ Symbol.seedEnd :: right)
    hcopies.home seed.cells_subset_bits
    (by simpa using copying_inside (ns.owns_state "home") hscratch
          seed.map_unmark_cells)
  have hhomed := Trace.moveRight (Copying start ns seed original right)
    (blanks (padding - 1))
    (seed.cells ++ Symbol.seedStart :: seed.cells ++ Symbol.seedEnd :: right)
    hcopies.leave
    (by simpa using copying_inside (ns.owns_state "home") hmade
          seed.map_unmark_cells)
  rw [Tape.leftOf_blanks] at hswept
  simp only [List.append_assoc, List.cons_append, List.nil_append,
    Word.cells_nil, blanks_max_one] at *
  exact hmarks.trans (hrestored.trans (hturned.trans (hrewound.trans
    (hswept.trans hhomed))))

/-- The number of blanks left of the scratch word once the seed has been
copied: the copy takes the place of the old scratch word and of padding, but
one blank is always kept or made. -/
def copyPadding (padding : Nat) (scratch seed : Word) : Nat :=
  max (max padding 1 + scratch.length - seed.length) 1

/-- The copy replaces the scratch word by the seed and leaves everything from
the seed start on as it was.  The head may start anywhere up to the seed end
and ends on the first scratch bit. -/
theorem copySeed_trace
    (hfollows : program.Follows (copySeedRules start done ns))
    (scratch seed : Word) (padding : Nat) (left row right : List Char)
    (hrow : left ++ row =
      blanks padding ++ scratch.cells ++ Symbol.seedStart :: seed.cells) :
    Trace program
      (Copying start ns seed (left ++ row ++ Symbol.seedEnd :: right) right)
      ⟨start, .rightOf left (row ++ Symbol.seedEnd :: right)⟩
      ⟨done, .rightOf (blanks (copyPadding padding scratch seed))
        (seed.cells ++ Symbol.seedStart :: seed.cells ++
          Symbol.seedEnd :: right)⟩ := by
  have hcopies := copies_of_follows hfollows
  have hprepare := copyPrepare_trace hcopies scratch padding right hrow
  have hloop := copyLoop_trace hcopies
    (left ++ row ++ Symbol.seedEnd :: right) right seed []
    (max padding 1 + scratch.length)
  have hfinish := copyFinish_trace hcopies seed
    (left ++ row ++ Symbol.seedEnd :: right) right
    (max padding 1 + scratch.length - seed.length)
  simp only [List.append_nil, Word.cells_nil, Word.marks_nil] at hloop
  exact hprepare.trans (hloop.trans hfinish)

end Copy

end XorOrbit.Synthesis
