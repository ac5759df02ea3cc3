import XorOrbit.Proofs.Namespace
import XorOrbit.Proofs.Run.Trace
import XorOrbit.Proofs.Tape.Row
import XorOrbit.Synthesis.DetectRepeat

/-!
# Appending the seed to the log

The seed bits are marked one after the other, carried over the log and written
on the first blank behind it.  Before each round the log ends with the part of
the seed that has been copied.
-/

namespace XorOrbit.Synthesis.DetectRepeat

/-- The state that carries a bit to the end of the log. -/
def appendCarryState (ns : Namespace) (index : Nat) (bit : Bool) : String :=
  let b := Symbol.ofBit bit
  ns.state s!"append_{index}_carry_{b}"

/-- The state that goes back to the seed bit that has been carried away. -/
def appendBackState (ns : Namespace) (index : Nat) : String :=
  ns.state s!"append_{index}_back"

theorem owns_appendState (layout : Layout) (ns : Namespace) (index : Nat) :
    ns.Owns (appendState layout ns index) := by
  unfold appendState
  split
  · exact ns.owns_state _
  · exact ns.owns_state _

theorem owns_appendCarryState (ns : Namespace) (index : Nat) (bit : Bool) :
    ns.Owns (appendCarryState ns index bit) :=
  ns.owns_state _

theorem owns_appendBackState (ns : Namespace) (index : Nat) :
    ns.Owns (appendBackState ns index) :=
  ns.owns_state _

/-- What may stand behind the last finished entry: a part of the seed, or the
whole seed with the open terminator. -/
def Opening (seed : Word) (opening : List Char) : Prop :=
  opening <+: seed.cells ∨ opening = seed.cells ++ [Symbol.openEntryEnd]

/-- What holds while a repeat is looked for: in the start state the tape is as
it was, and inside the subroutine nothing left of the seed start has changed,
the seed has at most some bits marked, and the log has been extended by a part
of the seed, by the open entry, or by the finished entry. -/
def Detecting (start : String) (ns : Namespace) (before : List Char)
    (seed : Word) (entries : List Word) (original : List Char)
    (state : String) (cells : List Char) : Prop :=
  (state = start ∧ cells = original) ∨
    (ns.Owns state ∧ ∃ (marked log opening : List Char)
      (logged : List Word) (count : Nat),
      marked.map Symbol.unmark = seed.cells ∧
        log.map Symbol.unmark =
          logCells logged ++ opening ++ blanks count ∧
        (logged = entries ∧ Opening seed opening ∨
          logged = entries ++ [seed] ∧ opening = []) ∧
        cells = before ++ Symbol.seedStart :: marked ++
          Symbol.seedEnd :: log)

section Append

variable {program : Program} {start fresh repeated : String}
  {layout : Layout} {ns : Namespace} {before original : List Char}
  {seed : Word} {entries : List Word}

theorem detecting_opening
    (start : String) (before original : List Char) (entries : List Word)
    {state : String} (hstate : ns.Owns state)
    {marked opening : List Char} (count : Nat)
    (hmarked : marked.map Symbol.unmark = seed.cells)
    (hopening : Opening seed opening)
    (hunmark : opening.map Symbol.unmark = opening) :
    Detecting start ns before seed entries original state
      (before ++ Symbol.seedStart :: marked ++ Symbol.seedEnd ::
        (logCells entries ++ opening ++ blanks count)) :=
  Or.inr ⟨hstate, marked, _, opening, entries, count, hmarked,
    by simp [hunmark], Or.inl ⟨rfl, hopening⟩, rfl⟩

theorem follows_appendBitRules {index : Nat}
    (hindex : index < layout.wordLength)
    (hfollows : program.Follows (appendBitRules layout ns index)) :
    (∀ bit, program.transition? (appendState layout ns index)
        (Symbol.ofBit bit) =
          some ⟨appendCarryState ns index bit, Symbol.markOf bit, .right⟩) ∧
      (∀ bit, program.Passes (appendCarryState ns index bit) crossing
          .right ∧
        program.transition? (appendCarryState ns index bit) Symbol.blank =
          some ⟨appendBackState ns index, Symbol.ofBit bit, .left⟩) ∧
      program.Passes (appendBackState ns index) crossing .left ∧
      ∀ bit, program.transition? (appendBackState ns index)
        (Symbol.markOf bit) =
          some ⟨appendState layout ns (index + 1), Symbol.ofBit bit,
            .right⟩ := by
  simp only [appendBitRules, Program.follows_append, Program.follows_mark,
    Program.follows_pass, Program.follows_cons, Program.follows_nil,
    Program.follows_findMark, and_true, and_assoc] at hfollows
  obtain ⟨hmark, hcarry0, hdrop0, hcarry1, hdrop1, hback, hrestore⟩ :=
    hfollows
  have hstate : appendState layout ns index =
      ns.state s!"append_{index}" := by
    simp [appendState, Nat.ne_of_lt hindex]
  refine ⟨by rw [hstate]; exact hmark, ?_, hback, hrestore⟩
  intro bit
  cases bit
  · exact ⟨hcarry0, hdrop0⟩
  · exact ⟨hcarry1, hdrop1⟩

/-- One round: a seed bit is marked and copied to the end of the log, where a
blank is made if there is none. -/
theorem appendBit_trace
    (start : String) (before original : List Char) (entries : List Word)
    {index : Nat} (hindex : index < layout.wordLength)
    (hfollows : program.Follows (appendBitRules layout ns index))
    (copied rest : Word) (bit : Bool) (reserve : Nat) :
    Trace program
      (Detecting start ns before (copied ++ bit :: rest) entries original)
      ⟨appendState layout ns index,
        .rightOf (before ++ Symbol.seedStart :: copied.cells)
          (Word.cells (bit :: rest) ++ Symbol.seedEnd ::
            (logCells entries ++ copied.cells ++ blanks reserve))⟩
      ⟨appendState layout ns (index + 1),
        .rightOf (before ++ Symbol.seedStart ::
            Word.cells (copied ++ [bit]))
          (rest.cells ++ Symbol.seedEnd ::
            (logCells entries ++ Word.cells (copied ++ [bit]) ++
              blanks (reserve - 1)))⟩ := by
  obtain ⟨hmark, hcarry, hback, hrestore⟩ :=
    follows_appendBitRules hindex hfollows
  obtain ⟨hpass, hdrop⟩ := hcarry bit
  have hplain := Word.map_unmark_cells (copied ++ bit :: rest)
  have hmarked : (copied.cells ++ Symbol.markOf bit :: rest.cells).map
      Symbol.unmark = Word.cells (copied ++ bit :: rest) := by simp
  have hcopied : Opening (copied ++ bit :: rest) copied.cells :=
    Or.inl (by simp)
  have hlonger : Opening (copied ++ bit :: rest)
      (Word.cells (copied ++ [bit])) :=
    Or.inl (by simp [List.prefix_append_right_inj])
  have hcrossed : rest.cells ++ Symbol.seedEnd ::
      (logCells entries ++ copied.cells) ⊆ crossing := by
    simp [crossing, List.append_subset]
  have htaken := Trace.moveRight
    (Detecting start ns before (copied ++ bit :: rest) entries original)
    (before ++ Symbol.seedStart :: copied.cells)
    (rest.cells ++ Symbol.seedEnd ::
      (logCells entries ++ copied.cells ++ blanks reserve)) (hmark bit)
    (by simpa using detecting_opening start before original entries
          (owns_appendState layout ns index) reserve hplain hcopied
          (by simp))
  have hcarried := Trace.sweepRight
    (Detecting start ns before (copied ++ bit :: rest) entries original)
    (before ++ Symbol.seedStart :: copied.cells ++ [Symbol.markOf bit]) _
    (blanks reserve) hpass hcrossed
    (by simpa using detecting_opening start before original entries
          (owns_appendCarryState ns index bit) reserve hmarked hcopied
          (by simp))
  have hdropped := Trace.moveLeft
    (Detecting start ns before (copied ++ bit :: rest) entries original)
    (before ++ Symbol.seedStart :: copied.cells ++
      Symbol.markOf bit :: rest.cells ++ Symbol.seedEnd ::
        (logCells entries ++ copied.cells))
    (blanks (reserve - 1)) hdrop
    (by simpa [blanks_succ] using detecting_opening start before original
          entries (owns_appendCarryState ns index bit) (reserve - 1 + 1)
          hmarked hcopied (by simp))
  have hreturned := Trace.leftThenRight
    (Detecting start ns before (copied ++ bit :: rest) entries original)
    (before ++ Symbol.seedStart :: copied.cells) _
    (Symbol.ofBit bit :: blanks (reserve - 1)) hback hcrossed (hrestore bit)
    (by simpa using detecting_opening start before original entries
          (owns_appendBackState ns index) (reserve - 1) hmarked hlonger
          (by simp))
  rw [Tape.rightOf_blanks] at hcarried
  simp only [List.append_assoc, List.cons_append, List.nil_append,
    Word.cells_append, Word.cells_cons, Word.cells_nil] at *
  exact htaken.trans (hcarried.trans (hdropped.trans hreturned))

/-- The rounds that are left: the rest of the seed is copied behind the part
that is in the log already. -/
theorem appendBits_trace
    (start : String) (before original : List Char) (entries : List Word)
    (hfollows : ∀ index < layout.wordLength,
      program.Follows (appendBitRules layout ns index))
    (copied rest : Word) (reserve : Nat)
    (hlength : copied.length + rest.length = layout.wordLength) :
    Trace program
      (Detecting start ns before (copied ++ rest) entries original)
      ⟨appendState layout ns copied.length,
        .rightOf (before ++ Symbol.seedStart :: copied.cells)
          (rest.cells ++ Symbol.seedEnd ::
            (logCells entries ++ copied.cells ++ blanks reserve))⟩
      ⟨ns.state "seal",
        .rightOf (before ++ Symbol.seedStart :: Word.cells (copied ++ rest))
          (Symbol.seedEnd :: (logCells entries ++
            Word.cells (copied ++ rest) ++
              blanks (reserve - rest.length)))⟩ := by
  induction rest generalizing copied reserve with
  | nil =>
      have hstate : appendState layout ns copied.length =
          ns.state "seal" := by
        rw [appendState, if_pos (by simpa using hlength)]
      simpa [hstate] using Trace.refl _
  | cons bit rest ih =>
      rw [List.length_cons] at hlength
      have hindex : copied.length < layout.wordLength := by omega
      have hround := appendBit_trace start before original entries hindex
        (hfollows _ hindex) copied rest bit reserve
      have hrest := ih (copied ++ [bit]) (reserve - 1)
        (by rw [List.length_append, List.length_singleton]; omega)
      rw [List.length_append, List.length_singleton] at hrest
      rw [Nat.sub_sub, Nat.add_comm 1] at hrest
      simp only [List.append_assoc, List.cons_append, List.nil_append]
        at hround hrest ⊢
      exact hround.trans hrest

/-- The entry is closed with the open terminator, and the head goes back to the
first entry. -/
theorem close_trace
    (start : String) (before original : List Char) (entries : List Word)
    (hseal : program.Passes (ns.state "seal") crossing .right)
    (hclose : program.transition? (ns.state "seal") Symbol.blank =
      some ⟨ns.state "rewind", Symbol.openEntryEnd, .left⟩)
    (hrewind : program.Passes (ns.state "rewind")
      (Symbol.bits ++ [Symbol.entryEnd]) .left)
    (hturn : program.transition? (ns.state "rewind") Symbol.seedEnd =
      some ⟨ns.state "probe_0", Symbol.seedEnd, .right⟩)
    (seed : Word) (reserve : Nat) :
    Trace program (Detecting start ns before seed entries original)
      ⟨ns.state "seal",
        .rightOf (before ++ Symbol.seedStart :: seed.cells)
          (Symbol.seedEnd ::
            (logCells entries ++ seed.cells ++ blanks reserve))⟩
      ⟨ns.state "probe_0",
        .rightOf (before ++ Symbol.seedStart :: seed.cells ++
            [Symbol.seedEnd])
          (logCells entries ++ seed.cells ++ Symbol.openEntryEnd ::
            blanks (reserve - 1))⟩ := by
  have hwhole : Opening seed seed.cells := Or.inl (List.prefix_refl _)
  have hopen : Opening seed (seed.cells ++ [Symbol.openEntryEnd]) :=
    Or.inr rfl
  have hplain := seed.map_unmark_cells
  have hsealed := Trace.sweepRight
    (Detecting start ns before seed entries original)
    (before ++ Symbol.seedStart :: seed.cells)
    (Symbol.seedEnd :: (logCells entries ++ seed.cells)) (blanks reserve)
    hseal (by simp [crossing, List.append_subset])
    (by simpa using detecting_opening start before original entries
          (ns.owns_state "seal") reserve hplain hwhole (by simp))
  have hclosed := Trace.moveLeft
    (Detecting start ns before seed entries original)
    (before ++ Symbol.seedStart :: seed.cells ++ Symbol.seedEnd ::
      (logCells entries ++ seed.cells))
    (blanks (reserve - 1)) hclose
    (by simpa [blanks_succ] using detecting_opening start before original
          entries (ns.owns_state "seal") (reserve - 1 + 1) hplain hwhole
          (by simp))
  have hrewound := Trace.leftThenRight
    (Detecting start ns before seed entries original)
    (before ++ Symbol.seedStart :: seed.cells)
    (logCells entries ++ seed.cells)
    (Symbol.openEntryEnd :: blanks (reserve - 1)) hrewind
    (by simp [List.append_subset]) hturn
    (by simpa using detecting_opening start before original entries
          (ns.owns_state "rewind") (reserve - 1) hplain hopen (by simp))
  rw [Tape.rightOf_blanks] at hsealed
  simp only [List.append_assoc, List.cons_append] at *
  exact hsealed.trans (hclosed.trans hrewound)

/-- The head goes to the first seed bit, the whole seed is copied behind the
log, and the new entry is closed. -/
theorem append_trace
    (henter : program.Follows (enterRules start ns))
    (hfollows : program.Follows (appendRules layout ns))
    (seed : Word) (hlength : seed.length = layout.wordLength)
    (entries : List Word) (left : List Char) {row : List Char}
    (hrow : row ⊆ Symbol.blank :: Symbol.bits) (reserve : Nat) :
    Trace program
      (Detecting start ns (left ++ row) seed entries
        (left ++ row ++ Symbol.seedStart :: seed.cells ++ Symbol.seedEnd ::
          (logCells entries ++ blanks reserve)))
      ⟨start, .rightOf left (row ++ Symbol.seedStart :: seed.cells ++
        Symbol.seedEnd :: (logCells entries ++ blanks reserve))⟩
      ⟨ns.state "probe_0",
        .rightOf (left ++ row ++ Symbol.seedStart :: seed.cells ++
            [Symbol.seedEnd])
          (logCells entries ++ seed.cells ++ Symbol.openEntryEnd ::
            blanks (reserve - (seed.length + 1)))⟩ := by
  simp only [enterRules, Program.follows_append, Program.follows_pass,
    Program.follows_cons, Program.follows_nil, and_true] at henter
  obtain ⟨hcross, henterSeed⟩ := henter
  simp only [appendRules, Program.follows_append, Program.follows_flatMap,
    List.mem_range, Program.follows_pass, Program.follows_cons,
    Program.follows_nil, Program.follows_travel, and_true,
    and_assoc] at hfollows
  obtain ⟨hbits, hseal, hclose, hrewind, hturn⟩ := hfollows
  have hpos := layout.wordLength_pos
  have hfirst : appendState layout ns 0 = ns.state "append_0" := by
    rw [appendState, if_neg (by omega)]
    rfl
  have hentered := Trace.rightThenRight
    (Detecting start ns (left ++ row) seed entries
      (left ++ row ++ Symbol.seedStart :: seed.cells ++ Symbol.seedEnd ::
        (logCells entries ++ blanks reserve)))
    left row (seed.cells ++ Symbol.seedEnd ::
      (logCells entries ++ blanks reserve)) hcross hrow henterSeed
    (Or.inl ⟨rfl, by simp⟩)
  have happended := appendBits_trace start (left ++ row)
    (left ++ row ++ Symbol.seedStart :: seed.cells ++ Symbol.seedEnd ::
      (logCells entries ++ blanks reserve)) entries hbits [] seed reserve
    (by simpa using hlength)
  have hclosed := close_trace start (left ++ row)
    (left ++ row ++ Symbol.seedStart :: seed.cells ++ Symbol.seedEnd ::
      (logCells entries ++ blanks reserve)) entries hseal hclose hrewind
    hturn seed (reserve - seed.length)
  rw [Nat.sub_sub] at hclosed
  simp only [List.append_assoc, List.cons_append, List.nil_append,
    List.length_nil, Word.cells_nil, hfirst] at *
  exact hentered.trans (happended.trans hclosed)

end Append

end XorOrbit.Synthesis.DetectRepeat
