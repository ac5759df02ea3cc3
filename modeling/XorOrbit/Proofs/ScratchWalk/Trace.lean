import XorOrbit.Proofs.Namespace
import XorOrbit.Proofs.Run.Trace
import XorOrbit.Proofs.Tape.Row
import XorOrbit.Synthesis.ScratchWalk

/-!
# The run of a walk over the scratch word

A walk carries the scratch bits into the seed one after the other.  What a
visit does there is described by a function of the index, the bit and the seed
that gives the new bit and the new seed.  `ScratchWalk.Acts` says that the
rules of the visits do what the function says, and `scratchWalk_trace` that the
walk then leaves the words that `walked` computes by recursion.
-/

namespace XorOrbit.Synthesis.ScratchWalk

/-- The rules of a walk, given the rules of its visits. -/
def walkRules (start done : String) (layout : Layout) (ns : Namespace)
    (visitRules : Visit → List Rule) : List Rule :=
  (visits layout ns).flatMap (fun visit =>
    approachRules start layout ns visit ++ visitRules visit) ++
    homeRules done ns

/-- The effect of one visit on the scratch bit and the seed. -/
abbrev Effect := Nat → Bool → Word → Bool × Word

/-- The scratch word and the seed after at most `count` visits, the first of
which has the given index. -/
def walked (effect : Effect) : Nat → Nat → Word → Word → Word × Word
  | 0, _, scratch, seed => (scratch, seed)
  | _ + 1, _, [], seed => ([], seed)
  | count + 1, index, bit :: scratch, seed =>
    let visited := effect index bit seed
    let rest := walked effect count (index + 1) scratch visited.2
    (visited.1 :: rest.1, rest.2)

/-- Every visit goes from the first seed bit back into the scratch word, has
the effect on the bit and the seed, and changes nothing but the seed.  All
seeds that occur satisfy `valid`. -/
def Acts (program : Program) (layout : Layout) (ns : Namespace)
    (effect : Effect) (valid : Word → Prop) (right : List Char) : Prop :=
  ∀ index < layout.wordLength, ∀ bit seed, valid seed →
    valid (effect index bit seed).2 ∧
      ∀ (via : String → List Char → Prop) (left : List Char),
        (∀ state seed', ns.Owns state → valid seed' →
          via state (left ++ seed'.cells ++ right)) →
        ∃ passed rest, passed ++ rest = (effect index bit seed).2.cells ∧
          Trace program via
            ⟨(visit ns index bit).state, .rightOf left (seed.cells ++ right)⟩
            ⟨returnState ns index (effect index bit seed).1,
              .leftOf (left ++ passed) (rest ++ right)⟩

/-- What holds during a walk: in the start state the tape is as it was, and
inside the walk there is a scratch word of the same length, possibly with a
marker in it, and a valid seed, and nothing else has changed. -/
def Walking (start : String) (ns : Namespace) (valid : Word → Prop)
    (length : Nat) (original right : List Char)
    (around : List Char → Prop) (state : String) (cells : List Char) : Prop :=
  (state = start ∧ cells = original) ∨
    (ns.Owns state ∧ ∃ (left scratch : List Char) (seed : Word),
      around left ∧ scratch.length = length ∧
        scratch ⊆ Symbol.bits ++ Symbol.marks ∧ valid seed ∧
        cells = left ++ scratch ++ Symbol.seedStart :: seed.cells ++ right)

section Rules

variable {program : Program} {start done : String} {layout : Layout}
  {ns : Namespace} {visitRules : Visit → List Rule}

theorem follows_walkRules :
    program.Follows (walkRules start done layout ns visitRules) ↔
      (∀ index < layout.wordLength,
        program.Follows (bitRules start layout ns index) ∧
          ∀ bit, program.Follows (carryRules ns (visit ns index bit)) ∧
            program.Follows (visitRules (visit ns index bit))) ∧
        program.Follows (homeRules done ns) := by
  simp only [walkRules, visits, Program.follows_append, List.flatMap_assoc,
    Program.follows_flatMap, List.mem_range, List.flatMap_cons,
    List.flatMap_nil, approachRules, Bool.forall_bool]
  simp [visit, and_assoc]

/-- A program with the rules of a walk has the rules of its visits. -/
theorem follows_visitRules
    (hfollows : program.Follows
      (walkRules start done layout ns visitRules)) :
    ∀ index < layout.wordLength, ∀ bit,
      program.Follows (visitRules (visit ns index bit)) := by
  intro index hindex bit
  exact (((follows_walkRules.mp hfollows).1 index hindex).2 bit).2

theorem owns_carryState
    (ns : Namespace) (index : Nat) (bit : Bool) :
    ns.Owns (carryState ns index bit) :=
  ns.owns_state _

theorem owns_returnState
    (ns : Namespace) (index : Nat) (bit : Bool) :
    ns.Owns (returnState ns index bit) :=
  ns.owns_state _

theorem owns_visitState
    (ns : Namespace) (index : Nat) (bit : Bool) :
    ns.Owns (visit ns index bit).state :=
  ns.owns_state _

/-- The state for a later bit is the walk's own. -/
theorem owns_bitState {index : Nat} (hindex : index ≠ 0) :
    ns.Owns (bitState start layout ns index) := by
  simp only [bitState, hindex, if_false]
  split
  · exact ns.owns_state _
  · exact ns.owns_state _

theorem follows_bitRules {index : Nat}
    (hfollows : program.Follows (bitRules start layout ns index)) :
    (∀ bit, program.transition? (bitState start layout ns index)
        (Symbol.ofBit bit) =
          some ⟨carryState ns index bit, Symbol.markOf bit, .right⟩) ∧
      program.transition? (bitState start layout ns index)
        Symbol.seedStart =
          some ⟨ns.state "rewind", Symbol.seedStart, .left⟩ ∧
      ∀ bit, program.Passes (returnState ns index bit)
          (Symbol.bits ++ [Symbol.seedStart]) .left ∧
        ∀ marked, program.transition? (returnState ns index bit)
          (Symbol.markOf marked) =
            some ⟨bitState start layout ns (index + 1), Symbol.ofBit bit,
              .right⟩ := by
  simp only [bitRules, Program.follows_append, Program.follows_mark,
    Program.follows_cons, Program.follows_findMark, Rule.transition,
    Restore.value] at hfollows
  obtain ⟨⟨⟨⟨-, hmark⟩, hleave, -⟩, hfalse⟩, htrue⟩ := hfollows
  refine ⟨hmark, hleave, ?_⟩
  intro bit
  cases bit
  · exact hfalse
  · exact htrue

theorem follows_carryRules {index : Nat} {bit : Bool}
    (hfollows : program.Follows (carryRules ns (visit ns index bit))) :
    program.Passes (carryState ns index bit) Symbol.bits .right ∧
      program.transition? (carryState ns index bit) Symbol.seedStart =
        some ⟨(visit ns index bit).state, Symbol.seedStart, .right⟩ := by
  simp only [carryRules, Program.follows_append, Program.follows_pass,
    Program.follows_cons, Program.follows_nil, and_true] at hfollows
  exact hfollows

end Rules

section Walk

variable {program : Program} {start done : String} {layout : Layout}
  {ns : Namespace} {visitRules : Visit → List Rule} {effect : Effect}
  {valid : Word → Prop} {length : Nat} {original right : List Char}
  {around : List Char → Prop}

theorem walking_inside
    (start : String) (original right : List Char)
    {state : String} (hstate : ns.Owns state)
    {left : List Char} (scratch : List Char) {seed : Word}
    (hleft : around left)
    (hlength : scratch.length = length)
    (hscratch : scratch ⊆ Symbol.bits ++ Symbol.marks) (hseed : valid seed) :
    Walking start ns valid length original right around state
      (left ++ scratch ++ Symbol.seedStart :: seed.cells ++ right) :=
  Or.inr ⟨hstate, left, scratch, seed, hleft, hlength, hscratch, hseed,
    rfl⟩

/-- Where the walk stands before the visit of a bit: it is inside, or it has
just started and the tape is as it was. -/
theorem walking_bitState
    (start : String) (layout : Layout) (ns : Namespace)
    (original right : List Char) (index : Nat)
    {left : List Char} (scratch : List Char) {seed : Word}
    (hleft : around left) (hlength : scratch.length = length)
    (hscratch : scratch ⊆ Symbol.bits ++ Symbol.marks) (hseed : valid seed)
    (hfirst : index = 0 →
      original = left ++ scratch ++ Symbol.seedStart :: seed.cells ++ right) :
    Walking start ns valid length original right around
      (bitState start layout ns index)
      (left ++ scratch ++ Symbol.seedStart :: seed.cells ++ right) := by
  by_cases hindex : index = 0
  · subst hindex
    exact Or.inl ⟨rfl, (hfirst rfl).symm⟩
  · exact walking_inside start original right (owns_bitState hindex) scratch
      hleft hlength hscratch hseed

/-- One visit: the bit is marked and carried into the seed, and the marker is
overwritten by the new bit. -/
theorem visit_trace
    (original : List Char) {index : Nat} (hindex : index < layout.wordLength)
    (hbits : program.Follows (bitRules start layout ns index))
    (hcarry : ∀ bit,
      program.Follows (carryRules ns (visit ns index bit)))
    (hacts : Acts program layout ns effect valid right)
    {left : List Char} (hleft : around left) (walkedBits rest seed : Word)
    (bit : Bool) (hseed : valid seed)
    (hlength : walkedBits.length + (rest.length + 1) = length)
    (hfirst : index = 0 → original = left ++ Word.cells (bit :: rest) ++
      Symbol.seedStart :: seed.cells ++ right ∧ walkedBits = []) :
    Trace program
      (Walking start ns valid length original right around)
      ⟨bitState start layout ns index,
        .rightOf (left ++ walkedBits.cells) (Word.cells (bit :: rest) ++
          Symbol.seedStart :: seed.cells ++ right)⟩
      ⟨bitState start layout ns (index + 1),
        .rightOf (left ++ Word.cells
            (walkedBits ++ [(effect index bit seed).1]))
          (rest.cells ++ Symbol.seedStart ::
            (effect index bit seed).2.cells ++ right)⟩ := by
  obtain ⟨hmark, -, hreturn⟩ := follows_bitRules hbits
  obtain ⟨hpass, hact⟩ := follows_carryRules (hcarry bit)
  obtain ⟨hvalid, hvisit⟩ := hacts index hindex bit seed hseed
  have hscratch : walkedBits.cells ++ Symbol.markOf bit :: rest.cells ⊆
      Symbol.bits ++ Symbol.marks := by
    simp [List.append_subset]
  have hmarked := Trace.moveRight
    (Walking start ns valid length original right around)
    (left ++ walkedBits.cells)
    (rest.cells ++ Symbol.seedStart :: seed.cells ++ right)
    (hmark bit)
    (by
      have hbit := walking_bitState start layout ns original right index
        (walkedBits.cells ++ Word.cells (bit :: rest)) hleft
        (by simpa using hlength) (by simp [List.append_subset]) hseed
        (fun hzero => by
          obtain ⟨horiginal, rfl⟩ := hfirst hzero
          simpa using horiginal)
      simpa using hbit)
  have hcarried := Trace.rightThenRight
    (Walking start ns valid length original right around)
    (left ++ walkedBits.cells ++ [Symbol.markOf bit]) _ (seed.cells ++ right)
    hpass rest.cells_subset_bits hact
    (by simpa using walking_inside start original right
          (owns_carryState ns index bit) _ hleft (by simpa using hlength)
          hscratch hseed)
  obtain ⟨passed, back, hback, hacted⟩ := hvisit
    (Walking start ns valid length original right around)
    (left ++ walkedBits.cells ++ Symbol.markOf bit :: rest.cells ++
      [Symbol.seedStart])
    (fun state seed' hstate hseed' => by
      simpa using walking_inside start original right hstate _ hleft
        (by simpa using hlength) hscratch hseed')
  have hpassed : passed ⊆ Symbol.bits :=
    (List.append_subset.mp
      (hback ▸ (effect index bit seed).2.cells_subset_bits)).1
  have hreturned := Trace.leftThenRight
    (Walking start ns valid length original right around)
    (left ++ walkedBits.cells) (rest.cells ++ Symbol.seedStart :: passed)
    (back ++ right) (hreturn (effect index bit seed).1).1
    (by
      rw [List.append_subset, List.cons_subset]
      exact ⟨by simp, by simp, List.subset_append_of_subset_left _ hpassed⟩)
    ((hreturn (effect index bit seed).1).2 bit)
    (by
      have hinside := walking_inside start original right
        (owns_returnState ns index (effect index bit seed).1) _ hleft
        (by simpa using hlength) hscratch hvalid
      rw [← hback] at hinside
      simpa using hinside)
  rw [← hback]
  simp only [List.append_assoc, List.cons_append, List.nil_append,
    Word.cells_append, Word.cells_cons, Word.cells_nil] at *
  exact hmarked.trans (hcarried.trans (hacted.trans hreturned))

/-- The rewinding state turns on the bit behind the last visited one, or on the
seed start if no bit is left. -/
theorem turn_trace
    (length : Nat) (original : List Char)
    (hrewind : program.Passes (ns.state "rewind")
      (Symbol.bits ++ [Symbol.seedStart]) .left)
    {left : List Char} (hleft : around left) (walkedBits rest seed : Word)
    (hseed : valid seed) (hlength : walkedBits.length + rest.length = length) :
    Trace program
      (Walking start ns valid length original right around)
      ⟨ns.state "rewind", .rightOf (left ++ walkedBits.cells)
        (rest.cells ++ Symbol.seedStart :: seed.cells ++ right)⟩
      ⟨ns.state "rewind", .leftOf (left ++ walkedBits.cells)
        (rest.cells ++ Symbol.seedStart :: seed.cells ++ right)⟩ := by
  have hinside := walking_inside start original right
    (ns.owns_state "rewind") (walkedBits.cells ++ rest.cells) hleft
    (by simpa using hlength) (by simp [List.append_subset]) hseed
  obtain ⟨symbol, others, hcells, hsymbol⟩ : ∃ symbol others,
      rest.cells ++ Symbol.seedStart :: seed.cells ++ right =
        symbol :: others ∧ symbol ∈ Symbol.bits ++ [Symbol.seedStart] := by
    cases rest with
    | nil => exact ⟨_, _, rfl, by simp⟩
    | cons bit rest => exact ⟨_, _, rfl, by simp⟩
  simp only [List.append_assoc, List.cons_append] at hinside hcells ⊢
  rw [hcells] at hinside ⊢
  exact Trace.moveLeft _ _ others (hrewind symbol hsymbol)
    (by simpa using hinside)

/-- The visits that are left, and the step into the rewinding state: the head
turns left on the bit behind the last visited one, or on the seed start if no
bit is left. -/
theorem visits_trace
    (length : Nat) (original : List Char)
    (hrules : ∀ index < layout.wordLength,
      program.Follows (bitRules start layout ns index) ∧
        ∀ bit, program.Follows (carryRules ns (visit ns index bit)))
    (hrewind : program.Passes (ns.state "rewind")
      (Symbol.bits ++ [Symbol.seedStart]) .left)
    (hacts : Acts program layout ns effect valid right)
    {left : List Char} (hleft : around left) (count index : Nat)
    (hcount : index + count = layout.wordLength)
    (walkedBits rest seed : Word) (hseed : valid seed)
    (hlength : walkedBits.length + rest.length = length)
    (hfirst : index = 0 → original = left ++ rest.cells ++
      Symbol.seedStart :: seed.cells ++ right ∧ walkedBits = []) :
    valid (walked effect count index rest seed).2 ∧
      (walked effect count index rest seed).1.length = rest.length ∧
      ∃ passed back : Word,
        passed ++ back =
          walkedBits ++ (walked effect count index rest seed).1 ∧
        Trace program
          (Walking start ns valid length original right around)
          ⟨bitState start layout ns index,
            .rightOf (left ++ walkedBits.cells)
              (rest.cells ++ Symbol.seedStart :: seed.cells ++ right)⟩
          ⟨ns.state "rewind", .leftOf (left ++ passed.cells)
            (back.cells ++ Symbol.seedStart ::
              (walked effect count index rest seed).2.cells ++ right)⟩ := by
  induction count generalizing index walkedBits rest seed with
  | zero =>
      have hindex : index = layout.wordLength := by omega
      have hpos := layout.wordLength_pos
      have hstate : bitState start layout ns index = ns.state "rewind" := by
        simp [bitState, hindex]
        omega
      rw [hstate]
      exact ⟨hseed, rfl, walkedBits, rest, rfl,
        turn_trace length original hrewind hleft walkedBits rest seed hseed
          hlength⟩
  | succ count ih =>
      have hindex : index < layout.wordLength := by omega
      obtain ⟨hbits, hcarry⟩ := hrules index hindex
      cases rest with
      | nil =>
          obtain ⟨-, hleave, -⟩ := follows_bitRules hbits
          refine ⟨hseed, rfl, walkedBits, [], by simp [walked], ?_⟩
          have hbit := walking_bitState start layout ns original right index
            walkedBits.cells hleft (by simpa using hlength) (by simp) hseed
            (fun hzero => by
              obtain ⟨horiginal, rfl⟩ := hfirst hzero
              simpa using horiginal)
          have hmove := Trace.moveLeft
            (Walking start ns valid length original right around)
            (left ++ walkedBits.cells) (seed.cells ++ right)
            hleave (by simpa using hbit)
          simpa [walked] using hmove
      | cons bit rest =>
          have hvisit := visit_trace original hindex hbits hcarry hacts
            hleft walkedBits rest seed bit hseed (by simpa using hlength)
            hfirst
          obtain ⟨hvalid, hwalked, passed, back, hback, hrest⟩ :=
            ih (index + 1) (by omega)
              (walkedBits ++ [(effect index bit seed).1]) rest
              (effect index bit seed).2 (hacts index hindex bit seed hseed).1
              (by simp only [List.length_append, List.length_cons,
                    List.length_nil] at hlength ⊢; omega)
              (by omega)
          refine ⟨hvalid, by simp [walked, hwalked], passed, back, ?_,
            hvisit.trans hrest⟩
          rw [hback]
          simp [walked]

/-- The head goes back over the scratch bits to the blank before them, which is
a new one if need be, and turns on it. -/
theorem home_trace
    (start : String) (original right : List Char)
    (hrewind : program.Passes (ns.state "rewind")
      (Symbol.bits ++ [Symbol.seedStart]) .left)
    (hdone : program.transition? (ns.state "rewind") Symbol.blank =
      some ⟨done, Symbol.blank, .right⟩)
    {left base : List Char} (hleft : around left)
    (hbase : ∀ rest, Tape.leftOf left rest =
      Tape.leftOf (base ++ [Symbol.blank]) rest)
    (haround : around (base ++ [Symbol.blank]))
    (passed back seed : Word) (hseed : valid seed)
    (hlength : passed.length + back.length = length) :
    Trace program
      (Walking start ns valid length original right around)
      ⟨ns.state "rewind", .leftOf (left ++ passed.cells)
        (back.cells ++ Symbol.seedStart :: seed.cells ++ right)⟩
      ⟨done, .rightOf (base ++ [Symbol.blank])
        (Word.cells (passed ++ back) ++ Symbol.seedStart ::
          seed.cells ++ right)⟩ := by
  have hinside {left : List Char} (hleft : around left) :=
    walking_inside start original right (ns.owns_state "rewind")
      (passed.cells ++ back.cells) hleft (by simpa using hlength)
      (by simp [List.append_subset]) hseed
  have hswept := Trace.sweepLeft
    (Walking start ns valid length original right around) left passed.cells
    (back.cells ++ Symbol.seedStart :: seed.cells ++ right) hrewind (by simp)
    (by simpa using hinside hleft)
  have hended := Trace.moveRight
    (Walking start ns valid length original right around) base
    (passed.cells ++ back.cells ++ Symbol.seedStart :: seed.cells ++ right)
    hdone (by simpa using hinside haround)
  rw [hbase, Tape.leftOf_concat] at hswept
  simp only [List.append_assoc, List.cons_append, Word.cells_append] at *
  exact hswept.trans hended

/-- The walk visits the scratch bits up to the length of a word and ends on the
first scratch bit, or on the seed start if there is none.  It may start on any
of the blanks before the scratch word. -/
theorem scratchWalk_trace
    (hfollows : program.Follows
      (walkRules start done layout ns visitRules))
    (hacts : Acts program layout ns effect valid right)
    (left row base : List Char) (hrow : row ⊆ [Symbol.blank])
    (hbase : ∀ rest, Tape.leftOf (left ++ row) rest =
      Tape.leftOf (base ++ [Symbol.blank]) rest)
    (haround : around (left ++ row))
    (haround' : around (base ++ [Symbol.blank]))
    (scratch seed : Word) (hseed : valid seed) :
    valid (walked effect layout.wordLength 0 scratch seed).2 ∧
      Trace program
        (Walking start ns valid scratch.length
          (left ++ row ++ scratch.cells ++ Symbol.seedStart ::
            seed.cells ++ right) right around)
        ⟨start, .rightOf left (row ++ (scratch.cells ++ Symbol.seedStart ::
          seed.cells ++ right))⟩
        ⟨done, .rightOf (base ++ [Symbol.blank])
          ((walked effect layout.wordLength 0 scratch seed).1.cells ++
            Symbol.seedStart ::
            (walked effect layout.wordLength 0 scratch seed).2.cells ++
              right)⟩ := by
  obtain ⟨hrules, hhome⟩ := follows_walkRules.mp hfollows
  have hpos := layout.wordLength_pos
  have hblank : program.Passes start [Symbol.blank] .right := by
    have hbits := (hrules 0 hpos).1
    simp only [bitRules, Program.follows_append, Program.follows_pass,
      if_true, bitState] at hbits
    exact hbits.1.1.1.1
  obtain ⟨hrewind, hdone⟩ : program.Passes (ns.state "rewind")
      (Symbol.bits ++ [Symbol.seedStart]) .left ∧
        program.transition? (ns.state "rewind") Symbol.blank =
          some ⟨done, Symbol.blank, .right⟩ := by
    simpa [homeRules, Rule.transition] using hhome
  have hentered := Trace.sweepRight
    (Walking start ns valid scratch.length (left ++ row ++ scratch.cells ++
      Symbol.seedStart :: seed.cells ++ right) right around) left _
    (scratch.cells ++ Symbol.seedStart :: seed.cells ++ right)
    hblank hrow (Or.inl ⟨rfl, by simp⟩)
  obtain ⟨hvalid, hwalked, passed, back, hback, hvisits⟩ :=
    visits_trace scratch.length
      (left ++ row ++ scratch.cells ++ Symbol.seedStart :: seed.cells ++
        right)
      (fun index hindex => ⟨(hrules index hindex).1,
        fun bit => ((hrules index hindex).2 bit).1⟩)
      hrewind hacts haround layout.wordLength 0 (Nat.zero_add _) [] scratch
      seed hseed (by simp) (fun _ => ⟨rfl, rfl⟩)
  rw [List.nil_append] at hback
  have hlength : passed.length + back.length = scratch.length := by
    rw [← hwalked, ← hback, List.length_append]
  have hended := home_trace start
    (left ++ row ++ scratch.cells ++ Symbol.seedStart :: seed.cells ++ right)
    right hrewind hdone haround hbase haround' passed back _ hvalid hlength
  refine ⟨hvalid, ?_⟩
  rw [← hback]
  simp only [List.append_assoc, List.cons_append, Word.cells_nil,
    List.append_nil, bitState, if_true] at *
  exact hentered.trans (hvisits.trans hended)

end Walk

/-! ## Stepping through the seed -/

section Seek

variable {program : Program} {ns : Namespace}

theorem owns_seekState
    (ns : Namespace) (index : Nat) (bit : Bool) (distance : Nat) :
    ns.Owns (seekState ns (visit ns index bit) distance) := by
  unfold seekState
  split
  · exact owns_visitState ns index bit
  · exact ns.owns_state _

/-- The head goes from the first seed bit over as many bits as it is told. -/
theorem seek_trace
    (via : String → List Char → Prop) (left right : List Char)
    (index : Nat) (bit : Bool) (passed : Word)
    (hfollows : program.Follows
      (seekRules ns (visit ns index bit) passed.length))
    (hvia : ∀ state, ns.Owns state →
      via state (left ++ passed.cells ++ right)) :
    Trace program via
      ⟨(visit ns index bit).state, .rightOf left (passed.cells ++ right)⟩
      ⟨seekState ns (visit ns index bit) passed.length,
        .rightOf (left ++ passed.cells) right⟩ := by
  simp only [seekRules, Program.follows_flatMap, List.mem_range,
    Program.follows_cross] at hfollows
  have hsteps := Trace.stepsRight via left passed.cells right
    (seekState ns (visit ns index bit)) (by simpa using hfollows)
    passed.cells_subset_bits
    (fun step => hvia _ (owns_seekState ns index bit step))
  simpa [seekState] using hsteps

/-- The head goes to a seed bit and turns left on it; the bit may be
overwritten. -/
theorem seek_turn_trace {via : String → List Char → Prop}
    {left right : List Char} {index target : Nat} {bit written : Bool}
    {next : String} {seed : Word} (hinside : target < seed.length)
    (hseek : program.Follows (seekRules ns (visit ns index bit) target))
    (hturn : program.transition? (seekState ns (visit ns index bit) target)
      (Symbol.ofBit seed[target]) = some ⟨next, Symbol.ofBit written, .left⟩)
    (hvia : ∀ state, ns.Owns state →
      via state (left ++ seed.cells ++ right)) :
    Trace program via
      ⟨(visit ns index bit).state, .rightOf left (seed.cells ++ right)⟩
      ⟨next, .leftOf (left ++ Word.cells (seed.take target))
        (Word.cells (written :: seed.drop (target + 1)) ++ right)⟩ := by
  have hsplit : seed.cells = Word.cells (seed.take target) ++
      Symbol.ofBit seed[target] :: Word.cells (seed.drop (target + 1)) := by
    rw [← Word.cells_cons, ← Word.cells_append, List.getElem_cons_drop,
      List.take_append_drop]
  have hlength : (seed.take target).length = target := by
    simp
    omega
  have hsought := seek_trace via left
    (Symbol.ofBit seed[target] ::
      Word.cells (seed.drop (target + 1)) ++ right) index bit
    (seed.take target) (by rw [hlength]; exact hseek)
    (fun state hstate => by simpa [hsplit] using hvia state hstate)
  rw [hlength] at hsought
  have hturned := Trace.moveLeft via (left ++ Word.cells (seed.take target))
    (Word.cells (seed.drop (target + 1)) ++ right) hturn
    (by simpa [hsplit] using hvia _ (owns_seekState ns index bit target))
  rw [hsplit]
  simpa using hsought.trans hturned

/-- A visit may turn left on the first seed bit, whatever stands behind it. -/
theorem cross_visit_trace {via : String → List Char → Prop}
    {left right : List Char} {index : Nat} {bit first : Bool} {rest : Word}
    {next : String}
    (hfollows : program.Follows
      (Phrase.cross (visit ns index bit).state Symbol.bits .left next))
    (hvia : ∀ state, ns.Owns state →
      via state (left ++ Word.cells (first :: rest) ++ right)) :
    Trace program via
      ⟨(visit ns index bit).state,
        .rightOf left (Word.cells (first :: rest) ++ right)⟩
      ⟨next, .leftOf left (Word.cells (first :: rest) ++ right)⟩ := by
  rw [Program.follows_cross] at hfollows
  exact Trace.moveLeft via left (Word.cells rest ++ right)
    (hfollows _ (Symbol.ofBit_mem_bits first))
    (by simpa using hvia _ (owns_visitState ns index bit))

end Seek

/-! ## Walks that do not change the seed -/

/-- The visited bits are replaced one by one, and the bits behind them stay. -/
theorem walked_of_constant {effect : Effect} {seed : Word}
    (hseed : ∀ index bit, (effect index bit seed).2 = seed)
    (count index : Nat) (scratch : Word) :
    walked effect count index scratch seed =
      (scratch.mapIdx fun place bit =>
        if place < count then (effect (index + place) bit seed).1 else bit,
        seed) := by
  induction count generalizing index scratch with
  | zero =>
      have hsame : scratch = scratch.mapIdx fun _ bit => bit :=
        List.ext_getElem (by simp) (by simp)
      simpa [walked] using hsame
  | succ count ih =>
      cases scratch with
      | nil => simp [walked]
      | cons bit scratch =>
          simp [walked, hseed, ih, List.mapIdx_cons, Nat.add_comm,
            Nat.add_left_comm]

end XorOrbit.Synthesis.ScratchWalk
