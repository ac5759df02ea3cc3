import XorOrbit.Proofs.DetectRepeat.Compare

/-!
# The run of the detection

The terminator behind the first entry that is the seed tells whether the seed
was logged before.  Either way the open terminator becomes a finished one and
the head goes to the seed start.
-/

namespace XorOrbit.Synthesis

namespace DetectRepeat

/-- The rules of the detection. -/
def detectRepeatRules (start fresh repeated : String) (layout : Layout)
    (ns : Namespace) : List Rule :=
  enterRules start ns ++ appendRules layout ns ++ compareRules layout ns ++
    verdictRules fresh repeated ns

section Verdict

variable {program : Program} {start fresh repeated : String}
  {layout : Layout} {ns : Namespace}

/-- While entries are compared, the log is closed by the open entry. -/
theorem detecting_compared
    (start : String) (before original : List Char)
    {seed : Word} (entries : List Word) (count : Nat) {state : String}
    (hstate : ns.Owns state) {log : List Char}
    (hlog : log.map Symbol.unmark =
      (logCells entries ++ seed.cells ++
        Symbol.openEntryEnd :: blanks count).map Symbol.unmark) :
    Detecting start ns before seed entries original state
      (before ++ Symbol.seedStart :: seed.cells ++
        Symbol.seedEnd :: log) := by
  refine Or.inr ⟨hstate, seed.cells, log,
    seed.cells ++ [Symbol.openEntryEnd], entries, count,
    seed.map_unmark_cells, ?_, Or.inl ⟨rfl, Or.inr rfl⟩, rfl⟩
  rw [hlog]
  simp

/-- Once the open terminator is gone, the seed is the last finished entry. -/
theorem detecting_logged
    (start : String) (before original : List Char)
    (seed : Word) (entries : List Word) (count : Nat) {state : String}
    (hstate : ns.Owns state) :
    Detecting start ns before seed entries original state
      (before ++ Symbol.seedStart :: seed.cells ++ Symbol.seedEnd ::
        (logCells (entries ++ [seed]) ++ blanks count)) :=
  Or.inr ⟨hstate, seed.cells, _, [], entries ++ [seed], count,
    seed.map_unmark_cells, by simp, Or.inr ⟨rfl, rfl⟩, rfl⟩

/-- The head goes back from the end of the log to the seed start. -/
theorem home_trace
    (start : String) (before original : List Char) {state next : String}
    (hstate : ns.Owns state)
    (hpass : program.Passes state homeward .left)
    (hturn : program.transition? state Symbol.seedStart =
      some ⟨next, Symbol.seedStart, .stay⟩)
    (seed : Word) (entries : List Word) (count : Nat) :
    Trace program (Detecting start ns before seed entries original)
      ⟨state, .leftOf (before ++ Symbol.seedStart :: seed.cells ++
          Symbol.seedEnd :: (logCells entries ++ seed.cells))
        (Symbol.entryEnd :: blanks count)⟩
      ⟨next, .rightOf before (Symbol.seedStart :: seed.cells ++
        Symbol.seedEnd ::
          (logCells (entries ++ [seed]) ++ blanks count))⟩ := by
  have hhome := Trace.leftThenStay
    (Detecting start ns before seed entries original) before
    (seed.cells ++ Symbol.seedEnd :: (logCells entries ++ seed.cells))
    (Symbol.entryEnd :: blanks count) hpass
    (by simp [homeward, List.append_subset]) hturn
    (by simpa using
      detecting_logged start before original seed entries count hstate)
  simpa using hhome

/-- The open terminator is met first: the seed is new. -/
theorem fresh_trace
    (start : String) (before original : List Char)
    (hfollows : program.Follows (verdictRules fresh repeated ns))
    (seed : Word) (entries : List Word) (count : Nat) :
    Trace program (Detecting start ns before seed entries original)
      ⟨ns.state "verdict", .rightOf (before ++ Symbol.seedStart ::
          seed.cells ++ Symbol.seedEnd ::
            (logCells entries ++ seed.cells))
        (Symbol.openEntryEnd :: blanks count)⟩
      ⟨fresh, .rightOf before (Symbol.seedStart :: seed.cells ++
        Symbol.seedEnd ::
          (logCells (entries ++ [seed]) ++ blanks count))⟩ := by
  simp only [verdictRules, Program.follows_append, Program.follows_cons,
    Program.follows_travel, and_assoc] at hfollows
  obtain ⟨-, hclose, -, -, -, -, hpass, hturn, -⟩ := hfollows
  have hclosed := Trace.moveLeft
    (Detecting start ns before seed entries original)
    (before ++ Symbol.seedStart :: seed.cells ++ Symbol.seedEnd ::
      (logCells entries ++ seed.cells)) (blanks count) hclose
    (by simpa using detecting_compared start before original entries count
          (ns.owns_state "verdict") rfl)
  exact hclosed.trans (home_trace start before original
    (ns.owns_state "home_continue") hpass hturn seed entries count)

/-- A finished terminator is met first: the seed is repeated.  The head goes
on to the open terminator to close the new entry. -/
theorem repeated_trace
    (start : String) (before original : List Char)
    (hfollows : program.Follows (verdictRules fresh repeated ns))
    (seed : Word) (earlier later : List Word) (count : Nat) :
    Trace program
      (Detecting start ns before seed (earlier ++ seed :: later) original)
      ⟨ns.state "verdict", .rightOf (before ++ Symbol.seedStart ::
          seed.cells ++ Symbol.seedEnd ::
            (logCells earlier ++ seed.cells))
        (Symbol.entryEnd :: logCells later ++ seed.cells ++
          Symbol.openEntryEnd :: blanks count)⟩
      ⟨repeated, .rightOf before (Symbol.seedStart :: seed.cells ++
        Symbol.seedEnd ::
          (logCells (earlier ++ seed :: later ++ [seed]) ++
            blanks count))⟩ := by
  simp only [verdictRules, Program.follows_append, Program.follows_cons,
    Program.follows_pass, Program.follows_travel, and_assoc] at hfollows
  obtain ⟨hfound, -, -, hseal, hclose, -, -, -, hpass, hturn⟩ := hfollows
  have hentered := Trace.moveRight
    (Detecting start ns before seed (earlier ++ seed :: later) original)
    (before ++ Symbol.seedStart :: seed.cells ++ Symbol.seedEnd ::
      (logCells earlier ++ seed.cells))
    (logCells later ++ seed.cells ++ Symbol.openEntryEnd :: blanks count)
    hfound
    (by simpa using detecting_compared start before original
          (earlier ++ seed :: later) count (ns.owns_state "verdict") rfl)
  have hclosed := Trace.rightThenLeft
    (Detecting start ns before seed (earlier ++ seed :: later) original)
    (before ++ Symbol.seedStart :: seed.cells ++ Symbol.seedEnd ::
      (logCells earlier ++ seed.cells ++ [Symbol.entryEnd]))
    (logCells later ++ seed.cells) (blanks count) hseal
    (by simp [List.append_subset]) hclose
    (by simpa using detecting_compared start before original
          (earlier ++ seed :: later) count (ns.owns_state "seal_found") rfl)
  have hhome := home_trace start before original
    (ns.owns_state "home_found") hpass hturn seed (earlier ++ seed :: later)
    count
  simp only [List.append_assoc, List.cons_append, List.nil_append,
    logCells_append, logCells_cons, logCells_nil] at *
  exact hentered.trans (hclosed.trans hhome)

end Verdict

end DetectRepeat

open DetectRepeat in
/-- The detection appends the seed to the log and leaves for `repeated` if the
log had it before, else for `fresh`.  The head may start anywhere in the
scratch region and ends on the seed start. -/
theorem detectRepeat_trace
    {program : Program} {start fresh repeated : String} {layout : Layout}
    {ns : Namespace}
    (hfollows : program.Follows
      (detectRepeatRules start fresh repeated layout ns))
    (seed : Word) (hlength : seed.length = layout.wordLength)
    (entries : List Word)
    (hentries : ∀ entry ∈ entries, entry.length = layout.wordLength)
    (left row : List Char) (hrow : row ⊆ Symbol.blank :: Symbol.bits)
    (reserve : Nat) :
    Trace program
      (Detecting start ns (left ++ row) seed entries
        (left ++ row ++ Symbol.seedStart :: seed.cells ++ Symbol.seedEnd ::
          (logCells entries ++ blanks reserve)))
      ⟨start, .rightOf left (row ++ Symbol.seedStart :: seed.cells ++
        Symbol.seedEnd :: (logCells entries ++ blanks reserve))⟩
      ⟨if seed ∈ entries then repeated else fresh,
        .rightOf (left ++ row) (Symbol.seedStart :: seed.cells ++
          Symbol.seedEnd :: (logCells (entries ++ [seed]) ++
            blanks (reserve - (layout.wordLength + 1))))⟩ := by
  simp only [detectRepeatRules, Program.follows_append,
    and_assoc] at hfollows
  obtain ⟨henter, happend, hcompare, hverdict⟩ := hfollows
  have happended := append_trace henter happend seed hlength entries left
    hrow reserve
  obtain ⟨hfound, hmissing⟩ := compare_trace
    (Detecting start ns (left ++ row) seed entries
      (left ++ row ++ Symbol.seedStart :: seed.cells ++ Symbol.seedEnd ::
        (logCells entries ++ blanks reserve)))
    (left ++ row) hcompare seed hlength [] entries
    (fun entry hentry => (hentries entry hentry).trans hlength.symm)
    (Symbol.openEntryEnd :: blanks (reserve - (seed.length + 1)))
    (fun state log hstate hlog =>
      detecting_compared start _ _ entries _ hstate (by simpa using hlog))
  rw [hlength] at happended hfound hmissing
  simp only [List.append_assoc, List.cons_append, List.nil_append,
    logCells_nil] at happended hfound hmissing
  split
  · rename_i hmem
    obtain ⟨earlier, later, hsplit, hcompared⟩ := hfound hmem
    subst hsplit
    have hclosed := repeated_trace start (left ++ row)
      (left ++ row ++ Symbol.seedStart :: seed.cells ++ Symbol.seedEnd ::
        (logCells (earlier ++ seed :: later) ++ blanks reserve)) hverdict
      seed earlier later (reserve - (layout.wordLength + 1))
    simp only [List.append_assoc,
      List.cons_append] at hclosed happended hcompared ⊢
    exact happended.trans (hcompared.trans hclosed)
  · rename_i hmem
    have hclosed := fresh_trace start (left ++ row)
      (left ++ row ++ Symbol.seedStart :: seed.cells ++ Symbol.seedEnd ::
        (logCells entries ++ blanks reserve)) hverdict seed entries
      (reserve - (layout.wordLength + 1))
    have hcompared := hmissing hmem
    simp only [List.append_assoc,
      List.cons_append] at hclosed happended hcompared ⊢
    exact happended.trans (hcompared.trans hclosed)

end XorOrbit.Synthesis
