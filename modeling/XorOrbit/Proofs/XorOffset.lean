import XorOrbit.Proofs.ScratchWalk.Alone
import XorOrbit.Proofs.ScratchWalk.Connected
import XorOrbit.Proofs.ScratchWalk.Outline
import XorOrbit.Proofs.Word.Shift
import XorOrbit.Synthesis.XorOffset

/-!
# The run of the combination with the shifted seed

Each visit reads one seed bit, or none if the offset leads out of the word, and
the scratch bit becomes the exclusive or.  On a scratch word that is a copy of
the seed this is one shift of the generator.
-/

namespace XorOrbit.Synthesis

open ScratchWalk

/-- The scratch bit is combined with the seed bit at the offset. -/
def xorEffect (offset : Int) : Effect := fun index bit seed =>
  (Bool.xor bit (seed.bitAt (index + offset)), seed)

section Rules

variable {program : Program} {layout : Layout} {offset : Int}
  {ns : Namespace}

/-- A visit with a target reads the seed bit there and turns left. -/
theorem xorVisit_trace_some {index target : Nat} {bit : Bool} {seed : Word}
    (htarget : xorTarget? layout offset index = some target)
    (hfollows : program.Follows
      (xorVisitRules layout offset ns (visit ns index bit)))
    (hinside : target < seed.length)
    {via : String → List Char → Prop} {left right : List Char}
    (hvia : ∀ state, ns.Owns state →
      via state (left ++ seed.cells ++ right)) :
    Trace program via
      ⟨(visit ns index bit).state, .rightOf left (seed.cells ++ right)⟩
      ⟨returnState ns index (Bool.xor bit seed[target]),
        .leftOf (left ++ Word.cells (seed.take target))
          (Word.cells (seed.drop target) ++ right)⟩ := by
  have hvisit : (visit ns index bit).index = index := rfl
  simp only [xorVisitRules, hvisit, htarget, Program.follows_append]
    at hfollows
  obtain ⟨hseek, hprobe⟩ := hfollows
  have hread : program.transition?
      (seekState ns (visit ns index bit) target)
      (Symbol.ofBit seed[target]) =
        some ⟨returnState ns index (Bool.xor bit seed[target]),
          Symbol.ofBit seed[target], .left⟩ := by
    refine hprobe _ (List.mem_map_of_mem
      (f := fun seedBit => (⟨seekState ns (visit ns index bit) target,
        Symbol.ofBit seedBit, Symbol.ofBit seedBit, .left,
        (visit ns index bit).back (Bool.xor (visit ns index bit).bit
          seedBit)⟩ : Rule)) (a := seed[target]) ?_)
    cases seed[target] <;> simp
  have htrace := seek_turn_trace hinside hseek hread hvia
  rwa [List.getElem_cons_drop] at htrace

/-- A visit without a target turns left on the first seed bit. -/
theorem xorVisit_trace_none {index : Nat} {bit first : Bool} {rest : Word}
    (htarget : xorTarget? layout offset index = none)
    (hfollows : program.Follows
      (xorVisitRules layout offset ns (visit ns index bit)))
    {via : String → List Char → Prop} {left right : List Char}
    (hvia : ∀ state, ns.Owns state →
      via state (left ++ Word.cells (first :: rest) ++ right)) :
    Trace program via
      ⟨(visit ns index bit).state,
        .rightOf left (Word.cells (first :: rest) ++ right)⟩
      ⟨returnState ns index bit,
        .leftOf left (Word.cells (first :: rest) ++ right)⟩ := by
  have hvisit : (visit ns index bit).index = index := rfl
  simp only [xorVisitRules, hvisit, htarget] at hfollows
  exact cross_visit_trace hfollows hvia

theorem bitAt_of_xorTarget?_eq_some {index target : Nat} {seed : Word}
    (hlength : seed.length = layout.wordLength)
    (htarget : xorTarget? layout offset index = some target) :
    ∃ hinside : target < seed.length,
      seed.bitAt (index + offset) = seed[target] := by
  simp only [xorTarget?] at htarget
  split at htarget
  · rename_i hrange
    have heq := Option.some.inj htarget
    have hinside : target < seed.length := by omega
    refine ⟨hinside, ?_⟩
    rw [show index + offset = (target : Int) by omega,
      Word.bitAt_natCast seed hinside]
  · simp at htarget

theorem bitAt_of_xorTarget?_eq_none {index : Nat} {seed : Word}
    (hlength : seed.length = layout.wordLength)
    (htarget : xorTarget? layout offset index = none) :
    seed.bitAt (index + offset) = false := by
  simp only [xorTarget?] at htarget
  split at htarget
  · simp at htarget
  · rename_i hrange
    exact Word.bitAt_of_outside seed (by omega)

/-- The visits combine each scratch bit with its seed bit and leave the seed
alone. -/
theorem xorVisitRules_acts {seed : Word}
    (hlength : seed.length = layout.wordLength) {right : List Char}
    (hfollows : ∀ index < layout.wordLength, ∀ bit, program.Follows
      (xorVisitRules layout offset ns (visit ns index bit))) :
    Acts program layout ns (xorEffect offset) (· = seed) right := by
  intro index hindex bit copy hcopy
  obtain rfl : seed = copy := hcopy.symm
  refine ⟨rfl, ?_⟩
  intro via left hvia
  have hvia' : ∀ state, ns.Owns state →
      via state (left ++ seed.cells ++ right) :=
    fun state hstate => hvia state seed hstate rfl
  cases htarget : xorTarget? layout offset index with
  | some target =>
      obtain ⟨hinside, hbit⟩ := bitAt_of_xorTarget?_eq_some hlength htarget
      refine ⟨Word.cells (seed.take target), Word.cells (seed.drop target),
        ?_, ?_⟩
      · rw [← Word.cells_append, List.take_append_drop]
        rfl
      · have htrace := xorVisit_trace_some htarget
          (hfollows index hindex bit) hinside hvia'
        simpa [xorEffect, hbit] using htrace
  | none =>
      refine ⟨[], seed.cells, rfl, ?_⟩
      cases seed with
      | nil =>
          rw [List.length_nil] at hlength
          omega
      | cons first rest =>
          have htrace := xorVisit_trace_none htarget
            (hfollows index hindex bit) hvia'
          have hbit := bitAt_of_xorTarget?_eq_none hlength htarget
          simpa [xorEffect, hbit] using htrace

end Rules

/-- On a copy of the seed the visits together are one xorshift step. -/
theorem walked_xorEffect (offset : Int) (seed : Word) :
    walked (xorEffect offset) seed.length 0 seed seed =
      (seed.xorShifted offset, seed) := by
  rw [walked_of_constant fun _ _ => rfl]
  congr 1
  apply List.ext_getElem?
  intro index
  rw [List.getElem?_mapIdx, Word.getElem?_xorShifted]
  by_cases hindex : index < seed.length
  · simp [xorEffect, hindex]
  · simp [hindex]

/-- The scratch word after the visits: each bit whose target is in the seed has
been combined with it, and bits beyond the length of the seed have not been
visited. -/
def combined (offset : Int) (scratch seed : Word) : Word :=
  scratch.mapIdx fun index bit =>
    let target := (index : Int) + offset
    if index < seed.length ∧ 0 ≤ target ∧ target < seed.length then
      Bool.xor bit (seed.getD target.toNat false)
    else bit

/-- A target outside the seed leaves the bit as it is. -/
theorem fst_xorEffect (offset : Int) (index : Nat) (bit : Bool)
    (seed : Word) :
    (xorEffect offset index bit seed).1 =
      if 0 ≤ (index : Int) + offset ∧ (index : Int) + offset < seed.length
      then Bool.xor bit (seed.getD ((index : Int) + offset).toNat false)
      else bit := by
  simp only [xorEffect, Word.bitAt]
  by_cases hlow : 0 ≤ (index : Int) + offset
  · by_cases hhigh : (index : Int) + offset < seed.length
    · rw [if_pos hlow, if_pos ⟨hlow, hhigh⟩]
    · rw [if_pos hlow, if_neg (fun hrange => hhigh hrange.2),
        List.getD_eq_default _ _ (by omega), Bool.xor_false]
  · rw [if_neg hlow, if_neg (fun hrange => hlow hrange.1), Bool.xor_false]

/-- On any scratch word the visits together compute `combined`. -/
theorem walked_xorEffect_eq_combined (offset : Int) (scratch seed : Word) :
    walked (xorEffect offset) seed.length 0 scratch seed =
      (combined offset scratch seed, seed) := by
  rw [walked_of_constant fun _ _ => rfl, combined]
  congr 2
  funext index bit
  by_cases hvisited : index < seed.length
  · simp [fst_xorEffect, hvisited]
  · rw [if_neg hvisited, if_neg (fun hrange => hvisited hrange.1)]

theorem combined_self (offset : Int) (seed : Word) :
    combined offset seed seed = seed.xorShifted offset := by
  have hwalked := walked_xorEffect offset seed
  rw [walked_xorEffect_eq_combined] at hwalked
  exact congrArg Prod.fst hwalked

/-! ## The fragment -/

/-- How far into the seed the visits of a scratch bit go. -/
def xorDistance (layout : Layout) (offset : Int) (number : Nat) : Nat :=
  (xorTarget? layout offset number).getD 0

section Fragment

variable (start done : String) (offset : Int) (layout : Layout)
  (ns : Namespace)

theorem fits_xorVisit (number : Nat) (value : Bool) :
    (ns.outline start
      (seekRows number value (xorDistance layout offset number))).Fits
        (xorVisitRules layout offset ns (visit ns number value)) := by
  simp only [xorVisitRules, xorDistance,
    show (visit ns number value).index = number from rfl]
  cases xorTarget? layout offset number with
  | none =>
      have hfits := fits_seek start ns number value 0
        (map_key_cross (visit ns number value).state
          ((visit ns number value).back (visit ns number value).bit)
          Symbol.bits .left)
      simpa [seekRules] using hfits
  | some target => exact fits_seek start ns number value target rfl

/-- The rules of the combination. -/
def xorOffsetRules : List Rule :=
  walkRules start done layout ns (xorVisitRules layout offset ns)

theorem xorOffset_comprises (hstart : ¬ ns.Owns start) :
    (ns.outline start (rows layout (xorDistance layout offset))).Fits
        (xorOffsetRules start done offset layout ns) ∧
      ∃ fragment, xorOffset start done offset layout ns = .ok fragment ∧
        fragment.Comprises (xorOffsetRules start done offset layout ns) :=
  scratchWalk_comprises start done layout ns hstart
    fun number _ value => fits_xorVisit start offset layout ns number value

/-- On its own the combination replaces every scratch word before a seed by
`combined`, with the head on its first bit.  Throughout the run the cells
before the scratch word and from the seed start on stay as they are; only a
blank is made if the tape begins with the scratch word. -/
theorem xorOffset_endsIn (hlabels : ns.Outside [start, done])
    (scratch seed : Word) (hseed : seed.length = layout.wordLength)
    (outer right : List Char) (padding head : Nat)
    (hpadding : outer = [] ∨ 0 < padding) (hhead : head ≤ padding) :
    ∃ fragment, xorOffset start done offset layout ns = .ok fragment ∧
      let program := fragment.program start [done]
        (walkCells outer padding scratch.cells seed
          (Symbol.seedEnd :: right)) (outer.length + head)
      program.EndsIn ⟨done, .ofCells
        (walkCells outer (max padding 1) (combined offset scratch seed).cells
          seed (Symbol.seedEnd :: right))
        (outer.length + max padding 1) Symbol.blank⟩ ∧
      (∀ steps, ∃ count scratch',
        (count = padding ∨ count = max padding 1) ∧
          scratch'.length = scratch.length ∧
          ((Machine.new program).after steps).tape.cells =
            walkCells outer count scratch' seed (Symbol.seedEnd :: right)) ∧
      combined offset seed seed = seed.xorShifted offset := by
  obtain ⟨hfits, fragment, hfragment, hrules⟩ := xorOffset_comprises start
    done offset layout ns (hlabels.not_owns start List.mem_cons_self)
  have hleaves := hlabels.state_notMem hfits
  have hacts (program : Program) (hfollows : program.Follows
      (xorOffsetRules start done offset layout ns)) :
      Acts program layout ns (xorEffect offset) (· = seed)
        (Symbol.seedEnd :: right) :=
    xorVisitRules_acts hseed (follows_visitRules hfollows)
  refine ⟨fragment, hfragment, ?_, ?_, combined_self offset seed⟩
  · have hends := walk_endsIn scratch hrules hleaves hacts hpadding hhead rfl
    rwa [← hseed, walked_xorEffect_eq_combined] at hends
  · intro steps
    obtain ⟨count, scratch', _, hcount, hlength, rfl, hcells⟩ :=
      walk_after scratch hrules hleaves hacts hpadding hhead rfl steps
    exact ⟨count, scratch', hcount, hlength, hcells⟩

end Fragment

/-- The scratch word may be shorter than the seed. -/
theorem xorOffset_endsIn_short_scratch :
    (Namespace.mk "xor").Outside ["entry", "exit"] ∧
      ∃ fragment,
        xorOffset "entry" "exit" 1 ⟨3, by decide⟩ ⟨"xor"⟩ = .ok fragment ∧
          (fragment.program "entry" ["exit"] "_11@101#".toList 0).EndsIn
            ⟨"exit", .ofCells "_10@101#".toList 1 Symbol.blank⟩ := by
  have hlabels : (Namespace.mk "xor").Outside ["entry", "exit"] :=
    Namespace.outside_of_notMem _ (by decide) (by decide)
  obtain ⟨fragment, hfragment, hends, -, -⟩ := xorOffset_endsIn "entry"
    "exit" 1 ⟨3, by decide⟩ ⟨"xor"⟩ hlabels [true, true] [true, false, true]
    rfl [] [] 1 0 (Or.inr Nat.one_pos) (Nat.zero_le 1)
  exact ⟨hlabels, fragment, hfragment, hends⟩

/-! ## Connectedness -/

section Connected

variable {program : Program} {origin start done : String} {offset : Int}
  {layout : Layout} {ns : Namespace}

/-- The state of a visit has a rule for zero, whether or not the visit has a
target. -/
theorem isKnown_xorVisit {index : Nat} {bit : Bool}
    (hfollows : program.Follows
      (xorVisitRules layout offset ns (visit ns index bit))) :
    program.isKnown (visit ns index bit).state = true := by
  have hvisit : (visit ns index bit).index = index := rfl
  simp only [xorVisitRules, hvisit] at hfollows
  cases htarget : xorTarget? layout offset index with
  | none =>
      simp only [htarget, Program.follows_cross] at hfollows
      exact Program.isKnown_of_transition?
        (hfollows _ (Symbol.ofBit_mem_bits false))
  | some target =>
      simp only [htarget, Program.follows_append, List.map_cons,
        Program.follows_cons] at hfollows
      obtain ⟨hseek, hprobe, -⟩ := hfollows
      exact isKnown_visit_of_seek hseek
        (Program.isKnown_of_transition? hprobe)

/-- Reading a zero, or nothing, brings the bit back as it is. -/
theorem xorVisitRules_returns
    (hfollows : ∀ index < layout.wordLength, ∀ bit, program.Follows
      (xorVisitRules layout offset ns (visit ns index bit))) :
    Returns program origin layout ns (xorVisitRules layout offset ns) := by
  intro index hindex bit hstart hknown
  have hrules := hfollows index hindex bit
  have hvisit : (visit ns index bit).index = index := rfl
  simp only [xorVisitRules, hvisit] at hrules ⊢
  cases htarget : xorTarget? layout offset index with
  | none =>
      simp only [htarget, Program.follows_cross] at hrules ⊢
      have hback := hstart.next (hrules _ (Symbol.ofBit_mem_bits false))
        (hknown bit)
      refine ⟨?_, hback⟩
      rw [Program.connects_cross]
      exact fun _ _ => ⟨hstart, hback⟩
  | some target =>
      simp only [htarget, Program.follows_append, List.map_cons,
        List.map_nil, Program.follows_cons] at hrules ⊢
      obtain ⟨hseek, hzero, hone, -⟩ := hrules
      obtain ⟨hconnects, hprobe⟩ := seek_connects hseek hstart
        (Program.isKnown_of_transition? hzero)
      have hback : program.Joins origin
          (returnState ns index (Bool.xor bit false)) :=
        hprobe.next hzero (hknown _)
      have hflipped := hprobe.next hone (hknown (Bool.xor bit true))
      refine ⟨?_, by simpa using hback⟩
      rw [Program.connects_append]
      refine ⟨hconnects, ?_⟩
      simp only [Program.connects_cons, Program.connects_nil, and_true]
      exact ⟨⟨hprobe, hback⟩, hprobe, hflipped⟩

/-- All states of the combination can be reached from its start state, and it
leads nowhere else than to its end. -/
theorem xorOffset_connects
    (hfollows : program.Follows
      (xorOffsetRules start done offset layout ns))
    (hstart : program.Joins origin start)
    (hdone : program.isKnown done = true) :
    program.Connects origin (xorOffsetRules start done offset layout ns) ∧
      program.Joins origin done := by
  have hvisits := follows_visitRules hfollows
  exact walk_connects hfollows
    (fun index hindex bit => isKnown_xorVisit (hvisits index hindex bit))
    (xorVisitRules_returns hvisits) hstart hdone

end Connected

end XorOrbit.Synthesis
