import XorOrbit.Proofs.DetectRepeat.Append

/-!
# Comparing the log with the seed

A bit of an entry is marked, the seed bit with the same index is looked up, and
the head comes back to the marker.  Every comparison leaves the tape as it was,
so its traces only say where the head gets to: behind the last bit of the entry
if all bits agree, and behind the terminator of the entry otherwise.
-/

namespace XorOrbit.Synthesis.DetectRepeat

/-- The state that goes from an entry to the seed start. -/
def probeSeekState (ns : Namespace) (index : Nat) (bit : Bool) : String :=
  let b := Symbol.ofBit bit
  ns.state s!"probe_{index}_seek_{b}"

/-- The state that stands on a seed bit. -/
def probeStandingState (ns : Namespace) (index : Nat) (bit : Bool)
    (step : Nat) : String :=
  let b := Symbol.ofBit bit
  ns.state s!"probe_{index}_seed_{b}_{step}"

/-- The state that goes back to an entry whose bit agrees. -/
def probeMatchState (ns : Namespace) (index : Nat) : String :=
  ns.state s!"probe_{index}_match"

theorem owns_probeState (layout : Layout) (ns : Namespace) (index : Nat) :
    ns.Owns (probeState layout ns index) := by
  unfold probeState
  split
  · exact ns.owns_state _
  · exact ns.owns_state _

theorem owns_probeSeekState (ns : Namespace) (index : Nat) (bit : Bool) :
    ns.Owns (probeSeekState ns index bit) :=
  ns.owns_state _

theorem owns_probeStandingState (ns : Namespace) (index : Nat) (bit : Bool)
    (step : Nat) : ns.Owns (probeStandingState ns index bit step) :=
  ns.owns_state _

theorem owns_probeMatchState (ns : Namespace) (index : Nat) :
    ns.Owns (probeMatchState ns index) :=
  ns.owns_state _

section Rules

variable {program : Program} {layout : Layout} {ns : Namespace}

theorem follows_probeSeedRules {index : Nat} {bit : Bool}
    (hfollows : program.Follows (probeSeedRules ns index bit)) :
    program.Passes (probeSeekState ns index bit) homeward .left ∧
      program.transition? (probeSeekState ns index bit) Symbol.seedStart =
        some ⟨probeStandingState ns index bit 0, Symbol.seedStart,
          .right⟩ ∧
      (∀ step < index, ∀ symbol ∈ Symbol.bits,
        program.transition? (probeStandingState ns index bit step) symbol =
          some ⟨probeStandingState ns index bit (step + 1), symbol,
            .right⟩) ∧
      ∀ seedBit, program.transition?
          (probeStandingState ns index bit index) (Symbol.ofBit seedBit) =
        some ⟨if bit = seedBit then probeMatchState ns index
          else ns.state "back_miss", Symbol.ofBit seedBit, .right⟩ := by
  simp only [probeSeedRules, Program.follows_append,
    Program.follows_travel, Program.follows_flatMap, List.mem_range,
    Program.follows_cross, Program.follows_cons, Program.follows_nil,
    and_true, and_assoc] at hfollows
  obtain ⟨hpass, hturn, hsteps, hmatch, hmiss⟩ := hfollows
  refine ⟨hpass, hturn, hsteps, ?_⟩
  intro seedBit
  by_cases hbit : bit = seedBit
  · subst hbit
    rw [if_pos rfl]
    exact hmatch
  · obtain rfl : seedBit = !bit := Bool.eq_not_of_ne (Ne.symm hbit)
    rw [if_neg hbit]
    exact hmiss

theorem follows_probeRules {index : Nat} (hindex : index < layout.wordLength)
    (hfollows : program.Follows (probeRules layout ns index)) :
    (∀ bit, program.transition? (probeState layout ns index)
        (Symbol.ofBit bit) =
          some ⟨probeSeekState ns index bit, Symbol.markOf bit, .left⟩) ∧
      (∀ bit, program.Follows (probeSeedRules ns index bit)) ∧
      program.Passes (probeMatchState ns index) crossing .right ∧
      ∀ bit, program.transition? (probeMatchState ns index)
        (Symbol.markOf bit) =
          some ⟨probeState layout ns (index + 1), Symbol.ofBit bit,
            .right⟩ := by
  simp only [probeRules, Program.follows_append, Program.follows_mark,
    Program.follows_findMark, and_assoc] at hfollows
  obtain ⟨hmark, hseed0, hseed1, hback, hrestore⟩ := hfollows
  have hstate : probeState layout ns index =
      ns.state s!"probe_{index}" := by
    rw [probeState, if_neg (by omega)]
  refine ⟨by rw [hstate]; exact hmark, ?_, hback, hrestore⟩
  intro bit
  cases bit
  · exact hseed0
  · exact hseed1

end Rules

section Compare

variable {program : Program} {layout : Layout} {ns : Namespace}

/-- The head goes from a marker in the log to the seed bit that is known to
stand behind as many others as the states count. -/
theorem seekSeed_trace
    (via : String → List Char → Prop) (before : List Char)
    {index : Nat} {bit : Bool}
    (hseek : program.Passes (probeSeekState ns index bit) homeward .left)
    (hturn : program.transition? (probeSeekState ns index bit)
      Symbol.seedStart =
        some ⟨probeStandingState ns index bit 0, Symbol.seedStart, .right⟩)
    (hsteps : ∀ step < index, ∀ symbol ∈ Symbol.bits,
      program.transition? (probeStandingState ns index bit step) symbol =
        some ⟨probeStandingState ns index bit (step + 1), symbol, .right⟩)
    (skipped rest : Word) (hskipped : skipped.length = index)
    (passed : List Char) (hpassed : passed ⊆ Symbol.bits ++ [Symbol.entryEnd])
    (right : List Char)
    (hvia : ∀ state, ns.Owns state →
      via state (before ++ Symbol.seedStart :: Word.cells (skipped ++ rest) ++
        Symbol.seedEnd :: (passed ++ right))) :
    Trace program via
      ⟨probeSeekState ns index bit,
        .leftOf (before ++ Symbol.seedStart ::
          Word.cells (skipped ++ rest) ++ Symbol.seedEnd :: passed) right⟩
      ⟨probeStandingState ns index bit index,
        .rightOf (before ++ Symbol.seedStart :: skipped.cells)
          (rest.cells ++ Symbol.seedEnd :: (passed ++ right))⟩ := by
  have hrow : Word.cells (skipped ++ rest) ++ Symbol.seedEnd :: passed ⊆
      homeward := by
    rw [List.append_subset, List.cons_subset]
    refine ⟨by simp [homeward], by simp [homeward], ?_⟩
    exact List.Subset.trans hpassed (by simp [homeward, List.append_subset])
  have hsought := Trace.leftThenRight via before _ right hseek hrow hturn
    (by simpa using hvia _ (owns_probeSeekState ns index bit))
  subst hskipped
  have hstepped := Trace.stepsRight via (before ++ [Symbol.seedStart])
    skipped.cells (rest.cells ++ Symbol.seedEnd :: (passed ++ right))
    (probeStandingState ns skipped.length bit)
    (by rw [Word.length_cells]; exact hsteps) (Word.cells_subset_bits _)
    (fun step => by
      simpa using hvia _ (owns_probeStandingState ns _ bit step))
  rw [Word.length_cells] at hstepped
  simp only [Word.cells_append, List.append_assoc, List.cons_append,
    List.nil_append] at *
  exact hsought.trans hstepped

/-- The head goes back from behind a seed bit to the marker in the log, and
behind it. -/
theorem backToEntry_trace
    (via : String → List Char → Prop) (before : List Char)
    {state next : String} {bit : Bool} (howns : ns.Owns state)
    (hpass : program.Passes state crossing .right)
    (hrestore : program.transition? state (Symbol.markOf bit) =
      some ⟨next, Symbol.ofBit bit, .right⟩)
    (skipped rest : Word)
    (passed : List Char) (hpassed : passed ⊆ Symbol.bits ++ [Symbol.entryEnd])
    (right : List Char)
    (hvia : ∀ state, ns.Owns state →
      via state (before ++ Symbol.seedStart :: Word.cells (skipped ++ rest) ++
        Symbol.seedEnd :: (passed ++ Symbol.markOf bit :: right))) :
    Trace program via
      ⟨state, .rightOf (before ++ Symbol.seedStart :: skipped.cells)
        (rest.cells ++ Symbol.seedEnd ::
          (passed ++ Symbol.markOf bit :: right))⟩
      ⟨next, .rightOf (before ++ Symbol.seedStart ::
        Word.cells (skipped ++ rest) ++ Symbol.seedEnd ::
          (passed ++ [Symbol.ofBit bit])) right⟩ := by
  have hrow : rest.cells ++ Symbol.seedEnd :: passed ⊆ crossing := by
    rw [List.append_subset, List.cons_subset]
    refine ⟨by simp [crossing], by simp [crossing], ?_⟩
    exact List.Subset.trans hpassed (by simp [crossing, List.append_subset])
  have hback := Trace.rightThenRight via
    (before ++ Symbol.seedStart :: skipped.cells) _ right hpass hrow hrestore
    (by simpa using hvia state howns)
  simpa using hback

/-- One bit: it is compared with the seed bit that has the same index, and the
head ends behind it, in the next probing state or in the skipping one. -/
theorem probeBit_trace
    (via : String → List Char → Prop) (before : List Char)
    (hfollows : program.Follows (compareRules layout ns))
    (compared rest : Word) (seedBit : Bool)
    (hlength : (compared ++ seedBit :: rest).length = layout.wordLength)
    (passed : List Char) (hpassed : passed ⊆ Symbol.bits ++ [Symbol.entryEnd])
    (bit : Bool) (right : List Char)
    (hvia : ∀ state log, ns.Owns state →
      log.map Symbol.unmark =
        (passed ++ Symbol.ofBit bit :: right).map Symbol.unmark →
      via state (before ++ Symbol.seedStart ::
        Word.cells (compared ++ seedBit :: rest) ++ Symbol.seedEnd :: log)) :
    Trace program via
      ⟨probeState layout ns compared.length,
        .rightOf (before ++ Symbol.seedStart ::
          Word.cells (compared ++ seedBit :: rest) ++
            Symbol.seedEnd :: passed) (Symbol.ofBit bit :: right)⟩
      ⟨if bit = seedBit then probeState layout ns (compared.length + 1)
        else ns.state "skip",
        .rightOf (before ++ Symbol.seedStart ::
          Word.cells (compared ++ seedBit :: rest) ++
            Symbol.seedEnd :: (passed ++ [Symbol.ofBit bit])) right⟩ := by
  simp only [compareRules, Program.follows_append, Program.follows_flatMap,
    List.mem_range, Program.follows_findMark, and_assoc] at hfollows
  obtain ⟨hprobe, hmissPass, hmissRestore, -⟩ := hfollows
  have hindex : compared.length < layout.wordLength := by
    simp only [List.length_append, List.length_cons] at hlength
    omega
  obtain ⟨hmark, hseed, hmatchPass, hmatchRestore⟩ :=
    follows_probeRules hindex (hprobe _ hindex)
  obtain ⟨hseekPass, hseekTurn, hsteps, hstanding⟩ :=
    follows_probeSeedRules (hseed bit)
  have hmarked : ∀ state, ns.Owns state →
      via state (before ++ Symbol.seedStart ::
        Word.cells (compared ++ seedBit :: rest) ++ Symbol.seedEnd ::
          (passed ++ Symbol.markOf bit :: right)) :=
    fun state howns => hvia state _ howns (by simp)
  have htaken := Trace.moveLeft via
    (before ++ Symbol.seedStart ::
      Word.cells (compared ++ seedBit :: rest) ++ Symbol.seedEnd :: passed)
    right (hmark bit)
    (by simpa using hvia _ _ (owns_probeState layout ns _) rfl)
  have hsought := seekSeed_trace via before hseekPass hseekTurn hsteps
    compared (seedBit :: rest) rfl passed hpassed (Symbol.markOf bit :: right)
    hmarked
  have hcompared := Trace.moveRight via
    (before ++ Symbol.seedStart :: compared.cells)
    (rest.cells ++ Symbol.seedEnd :: (passed ++ Symbol.markOf bit :: right))
    (hstanding seedBit)
    (by simpa using hmarked _ (owns_probeStandingState ns _ bit _))
  have hreturned (state next : String) (howns : ns.Owns state)
      (hpass : program.Passes state crossing .right)
      (hrestore : program.transition? state (Symbol.markOf bit) =
        some ⟨next, Symbol.ofBit bit, .right⟩) :=
    backToEntry_trace via before howns hpass hrestore
      (compared ++ [seedBit]) rest passed hpassed right
      (by simpa using hmarked)
  have hprepared := htaken.trans hsought
  by_cases hagree : bit = seedBit
  · rw [if_pos hagree] at hcompared ⊢
    have hback := hreturned _ _ (owns_probeMatchState ns _) hmatchPass
      (hmatchRestore bit)
    simp only [Word.cells_append, Word.cells_cons, Word.cells_nil,
      List.append_assoc, List.cons_append, List.nil_append] at *
    exact hprepared.trans (hcompared.trans hback)
  · rw [if_neg hagree] at hcompared ⊢
    have hback := hreturned _ _ (ns.owns_state "back_miss") hmissPass
      (hmissRestore bit)
    simp only [Word.cells_append, Word.cells_cons, Word.cells_nil,
      List.append_assoc, List.cons_append, List.nil_append] at *
    exact hprepared.trans (hcompared.trans hback)

/-- An entry that agrees with the rest of the seed is crossed up to its
terminator. -/
theorem match_trace
    (via : String → List Char → Prop) (before : List Char)
    (hfollows : program.Follows (compareRules layout ns))
    (compared rest : Word)
    (hlength : (compared ++ rest).length = layout.wordLength)
    (passed : List Char) (hpassed : passed ⊆ Symbol.bits ++ [Symbol.entryEnd])
    (right : List Char)
    (hvia : ∀ state log, ns.Owns state →
      log.map Symbol.unmark =
        (passed ++ rest.cells ++ right).map Symbol.unmark →
      via state (before ++ Symbol.seedStart ::
        Word.cells (compared ++ rest) ++ Symbol.seedEnd :: log)) :
    Trace program via
      ⟨probeState layout ns compared.length,
        .rightOf (before ++ Symbol.seedStart ::
          Word.cells (compared ++ rest) ++ Symbol.seedEnd :: passed)
            (rest.cells ++ right)⟩
      ⟨ns.state "verdict",
        .rightOf (before ++ Symbol.seedStart ::
          Word.cells (compared ++ rest) ++
            Symbol.seedEnd :: (passed ++ rest.cells)) right⟩ := by
  induction rest generalizing compared passed with
  | nil =>
      have hstate : probeState layout ns compared.length =
          ns.state "verdict" := by
        rw [probeState, if_pos (by simpa using hlength)]
      simpa [hstate] using Trace.refl _
  | cons bit rest ih =>
      have hbit := probeBit_trace via before hfollows compared rest bit
        hlength passed hpassed bit (Word.cells rest ++ right)
        (by simpa using hvia)
      have hrest := ih (compared ++ [bit]) (by simpa using hlength)
        (passed ++ [Symbol.ofBit bit])
        (by simpa [List.append_subset] using hpassed) (by simpa using hvia)
      rw [if_pos rfl] at hbit
      simp only [List.length_append, List.length_singleton,
        List.append_assoc, List.cons_append, List.nil_append,
        Word.cells_cons] at hbit hrest ⊢
      exact hbit.trans hrest

/-- An entry that disagrees with the rest of the seed is skipped together with
its terminator. -/
theorem mismatch_trace
    (via : String → List Char → Prop) (before : List Char)
    (hfollows : program.Follows (compareRules layout ns))
    (compared rest entry : Word)
    (hlength : (compared ++ rest).length = layout.wordLength)
    (hentry : entry.length = rest.length) (hne : entry ≠ rest)
    (passed : List Char) (hpassed : passed ⊆ Symbol.bits ++ [Symbol.entryEnd])
    (right : List Char)
    (hvia : ∀ state log, ns.Owns state →
      log.map Symbol.unmark =
        (passed ++ entry.cells ++ Symbol.entryEnd :: right).map
          Symbol.unmark →
      via state (before ++ Symbol.seedStart ::
        Word.cells (compared ++ rest) ++ Symbol.seedEnd :: log)) :
    Trace program via
      ⟨probeState layout ns compared.length,
        .rightOf (before ++ Symbol.seedStart ::
          Word.cells (compared ++ rest) ++ Symbol.seedEnd :: passed)
            (entry.cells ++ Symbol.entryEnd :: right)⟩
      ⟨ns.state "probe_0",
        .rightOf (before ++ Symbol.seedStart ::
          Word.cells (compared ++ rest) ++ Symbol.seedEnd ::
            (passed ++ entry.cells ++ [Symbol.entryEnd])) right⟩ := by
  induction rest generalizing compared passed entry with
  | nil => exact absurd (List.eq_nil_of_length_eq_zero hentry) hne
  | cons seedBit rest ih =>
      cases entry with
      | nil => simp at hentry
      | cons bit entry =>
          have hbit := probeBit_trace via before hfollows compared rest
            seedBit hlength passed hpassed bit
            (Word.cells entry ++ Symbol.entryEnd :: right)
            (by simpa using hvia)
          by_cases hagree : bit = seedBit
          · subst hagree
            have hrest := ih (compared ++ [bit]) entry
              (by simpa using hlength) (by simpa using hentry)
              (by simpa using hne) (passed ++ [Symbol.ofBit bit])
              (by simpa [List.append_subset] using hpassed)
              (by simpa using hvia)
            rw [if_pos rfl] at hbit
            simp only [List.length_append, List.length_singleton,
              List.append_assoc, List.cons_append, List.nil_append,
              Word.cells_cons] at hbit hrest ⊢
            exact hbit.trans hrest
          · rw [if_neg hagree] at hbit
            simp only [compareRules, Program.follows_append,
              Program.follows_travel, and_assoc] at hfollows
            obtain ⟨-, -, hskip, hnext⟩ := hfollows
            have hskipped := Trace.rightThenRight via
              (before ++ Symbol.seedStart ::
                Word.cells (compared ++ seedBit :: rest) ++
                  Symbol.seedEnd :: (passed ++ [Symbol.ofBit bit]))
              (Word.cells entry) right hskip (Word.cells_subset_bits _) hnext
              (by simpa using hvia _ _ (ns.owns_state "skip") rfl)
            simp only [List.append_assoc, List.cons_append, List.nil_append,
              Word.cells_cons] at hbit hskipped ⊢
            exact hbit.trans hskipped

/-- The state in which the comparison with an entry starts. -/
theorem probeState_zero (layout : Layout) (ns : Namespace) :
    probeState layout ns 0 = ns.state "probe_0" := by
  have hpos := layout.wordLength_pos
  rw [probeState, if_neg (by omega)]
  rfl

/-- The entries are compared one after the other.  If the seed is among them,
the head ends behind the bits of the first entry that is the seed; otherwise
it ends behind the bits of the open entry. -/
theorem compare_trace
    (via : String → List Char → Prop) (before : List Char)
    (hfollows : program.Follows (compareRules layout ns))
    (seed : Word) (hlength : seed.length = layout.wordLength)
    (passed entries : List Word)
    (hentries : ∀ entry ∈ entries, entry.length = seed.length)
    (right : List Char)
    (hvia : ∀ state log, ns.Owns state →
      log.map Symbol.unmark =
        (logCells (passed ++ entries) ++ seed.cells ++ right).map
          Symbol.unmark →
      via state (before ++ Symbol.seedStart :: seed.cells ++
        Symbol.seedEnd :: log)) :
    (seed ∈ entries → ∃ earlier later,
      passed ++ entries = earlier ++ seed :: later ∧
        Trace program via
          ⟨ns.state "probe_0", .rightOf (before ++ Symbol.seedStart ::
              seed.cells ++ Symbol.seedEnd :: logCells passed)
            (logCells entries ++ seed.cells ++ right)⟩
          ⟨ns.state "verdict", .rightOf (before ++ Symbol.seedStart ::
              seed.cells ++ Symbol.seedEnd ::
                (logCells earlier ++ seed.cells))
            (Symbol.entryEnd :: logCells later ++ seed.cells ++ right)⟩) ∧
      (seed ∉ entries → Trace program via
        ⟨ns.state "probe_0", .rightOf (before ++ Symbol.seedStart ::
            seed.cells ++ Symbol.seedEnd :: logCells passed)
          (logCells entries ++ seed.cells ++ right)⟩
        ⟨ns.state "verdict", .rightOf (before ++ Symbol.seedStart ::
            seed.cells ++ Symbol.seedEnd ::
              (logCells (passed ++ entries) ++ seed.cells)) right⟩) := by
  have hzero := probeState_zero layout ns
  have hpassed : logCells passed ⊆ Symbol.bits ++ [Symbol.entryEnd] := by
    simp
  induction entries generalizing passed with
  | nil =>
      have hmatch := match_trace via before hfollows [] seed hlength
        (logCells passed) hpassed right (by simpa using hvia)
      simp only [List.nil_append, List.length_nil, hzero] at hmatch
      exact ⟨by simp, fun _ => by simpa using hmatch⟩
  | cons entry entries ih =>
      rw [List.forall_mem_cons] at hentries
      by_cases hentry : entry = seed
      · subst hentry
        have hmatch := match_trace via before hfollows [] entry hlength
          (logCells passed) hpassed
          (Symbol.entryEnd :: logCells entries ++ entry.cells ++ right)
          (by simpa using hvia)
        simp only [List.nil_append, List.length_nil, hzero] at hmatch
        refine ⟨fun _ => ⟨passed, entries, rfl, by simpa using hmatch⟩, ?_⟩
        simp
      · have hskip := mismatch_trace via before hfollows [] seed entry hlength
          hentries.1 hentry (logCells passed) hpassed
          (logCells entries ++ seed.cells ++ right) (by simpa using hvia)
        obtain ⟨hfound, hmissing⟩ := ih (passed ++ [entry]) hentries.2
          (by simpa using hvia) (by simp)
        simp only [List.nil_append, List.length_nil, hzero, List.append_assoc,
          List.cons_append, logCells_append, logCells_cons,
          logCells_nil] at hskip hfound hmissing ⊢
        constructor
        · intro hmem
          obtain ⟨earlier, later, hsplit, htrace⟩ :=
            hfound (by simpa [Ne.symm hentry] using hmem)
          exact ⟨earlier, later, hsplit, hskip.trans htrace⟩
        · intro hmem
          exact hskip.trans
            (hmissing fun h => hmem (List.mem_cons_of_mem _ h))

end Compare

end XorOrbit.Synthesis.DetectRepeat
