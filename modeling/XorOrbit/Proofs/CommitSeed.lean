import XorOrbit.Proofs.ScratchWalk.Alone
import XorOrbit.Proofs.ScratchWalk.Connected
import XorOrbit.Proofs.ScratchWalk.Outline
import XorOrbit.Synthesis.CommitSeed

/-!
# The run of the commit

Each visit overwrites the seed bit with the index of the scratch bit.  Between
two visits the seed is partly new and partly old; once all bits of a scratch
word of full length have been visited it is the scratch word.
-/

namespace XorOrbit.Synthesis

open ScratchWalk

/-- The seed bit with the index of the scratch bit is overwritten by it. -/
def commitEffect : Effect := fun index bit seed => (bit, seed.set index bit)

section Rules

variable {program : Program} {layout : Layout} {ns : Namespace}

theorem commitVisit_trace {index : Nat} {bit : Bool} {seed : Word}
    (hfollows : program.Follows (commitVisitRules ns (visit ns index bit)))
    (hinside : index < seed.length)
    {via : String → List Char → Prop} {left right : List Char}
    (hvia : ∀ state, ns.Owns state →
      via state (left ++ seed.cells ++ right)) :
    Trace program via
      ⟨(visit ns index bit).state, .rightOf left (seed.cells ++ right)⟩
      ⟨returnState ns index bit,
        .leftOf (left ++ Word.cells (seed.take index))
          (Word.cells (bit :: seed.drop (index + 1)) ++ right)⟩ := by
  simp only [commitVisitRules, Program.follows_append] at hfollows
  obtain ⟨hseek, hwrite⟩ := hfollows
  have hread : program.transition?
      (seekState ns (visit ns index bit) index)
      (Symbol.ofBit seed[index]) =
        some ⟨returnState ns index bit, Symbol.ofBit bit, .left⟩ :=
    hwrite _ (List.mem_map_of_mem
      (f := fun symbol => (⟨seekState ns (visit ns index bit) index, symbol,
        Symbol.ofBit (visit ns index bit).bit, .left,
        (visit ns index bit).back (visit ns index bit).bit⟩ : Rule))
      (Symbol.ofBit_mem_bits seed[index]))
  exact seek_turn_trace hinside hseek hread hvia

/-- The visits write each scratch bit into the seed, whose length stays. -/
theorem commitVisitRules_acts {right : List Char}
    (hfollows : ∀ index < layout.wordLength, ∀ bit, program.Follows
      (commitVisitRules ns (visit ns index bit))) :
    Acts program layout ns commitEffect
      (fun seed => seed.length = layout.wordLength) right := by
  intro index hindex bit seed hseed
  refine ⟨by simpa [commitEffect] using hseed, ?_⟩
  intro via left hvia
  have hinside : index < seed.length := by omega
  refine ⟨Word.cells (seed.take index),
    Word.cells (bit :: seed.drop (index + 1)), ?_, ?_⟩
  · rw [← Word.cells_append]
    simp [commitEffect, List.set_eq_take_append_cons_drop, hinside]
  · exact commitVisit_trace (hfollows index hindex bit) hinside
      (fun state hstate => hvia state seed hstate hseed)

end Rules

/-- After some visits the seed consists of the scratch bits visited and of its
own bits elsewhere. -/
theorem walked_commitEffect (count index : Nat) (scratch seed : Word)
    (hcount : index + count ≤ seed.length) :
    walked commitEffect count index scratch seed =
      (scratch, seed.take index ++ scratch.take count ++
        seed.drop (index + min count scratch.length)) := by
  induction count generalizing index scratch seed with
  | zero => simp [walked]
  | succ count ih =>
      cases scratch with
      | nil => simp [walked]
      | cons bit scratch =>
          have hinside : index < seed.length := by omega
          have hrest := ih (index + 1) scratch (seed.set index bit)
            (by rw [List.length_set]; omega)
          have htake : (seed.set index bit).take (index + 1) =
              seed.take index ++ [bit] := by
            rw [List.set_eq_take_append_cons_drop, if_pos hinside]
            have hlength : (seed.take index).length = index := by
              simp
              omega
            rw [List.take_append, hlength, List.take_of_length_le (by omega)]
            simp
          have hdrop : (seed.set index bit).drop
              (index + 1 + min count scratch.length) =
                seed.drop (index + (min count scratch.length + 1)) := by
            rw [List.drop_set_of_lt (by omega)]
            congr 1
            omega
          simp only [walked, commitEffect] at hrest ⊢
          rw [hrest, htake, hdrop]
          simp [Nat.add_min_add_right]

/-- A scratch word of full length replaces the seed. -/
theorem walked_commitEffect_eq (scratch seed : Word)
    (hlength : scratch.length = seed.length) :
    walked commitEffect seed.length 0 scratch seed = (scratch, scratch) := by
  rw [walked_commitEffect _ _ _ _ (by omega), ← hlength]
  rw [List.take_of_length_le (Nat.le_refl _)]
  simp [hlength]

/-- The seed after the visits: a bit is kept if there is no scratch bit with
its index. -/
def overwritten (scratch seed : Word) : Word :=
  seed.mapIdx fun index bit => scratch.getD index bit

/-- On any scratch word the visits together compute `overwritten`. -/
theorem walked_commitEffect_eq_overwritten (scratch seed : Word) :
    walked commitEffect seed.length 0 scratch seed =
      (scratch, overwritten scratch seed) := by
  rw [walked_commitEffect _ _ _ _ (by omega)]
  congr 1
  apply List.ext_getElem
  · simp only [overwritten, List.length_append, List.length_take,
      List.length_drop, List.length_mapIdx]
    omega
  · intro index _ hoverwritten
    have hseed : index < seed.length := by
      simpa [overwritten] using hoverwritten
    simp only [overwritten, List.getElem_mapIdx, List.take_zero,
      List.nil_append, Nat.zero_add]
    by_cases hscratch : index < scratch.length
    · rw [List.getElem_append_left (by simp; omega), List.getElem_take,
        List.getD_eq_getElem _ _ hscratch]
    · rw [List.getElem_append_right (by simp; omega),
        List.getD_eq_default _ _ (by omega), List.getElem_drop]
      congr 1
      simp only [List.length_take]
      omega

/-! ## The fragment -/

section Fragment

variable (start done : String) (layout : Layout) (ns : Namespace)

/-- The rules of the commit. -/
def commitSeedRules : List Rule :=
  walkRules start done layout ns (commitVisitRules ns)

theorem commitSeed_comprises (hstart : ¬ ns.Owns start) :
    (ns.outline start (rows layout id)).Fits
        (commitSeedRules start done layout ns) ∧
      ∃ fragment, commitSeed start done layout ns = .ok fragment ∧
        fragment.Comprises (commitSeedRules start done layout ns) :=
  scratchWalk_comprises start done layout ns hstart
    fun number _ value => fits_seek start ns number value number rfl

/-- On its own the commit overwrites the seed behind any scratch word and ends
on the first scratch bit.  Everything else, the scratch word included, is as
before. -/
theorem commitSeed_endsIn (hlabels : ns.Outside [start, done])
    (scratch seed : Word) (hseed : seed.length = layout.wordLength)
    (outer right : List Char) (padding head : Nat)
    (hpadding : outer = [] ∨ 0 < padding) (hhead : head ≤ padding) :
    ∃ fragment, commitSeed start done layout ns = .ok fragment ∧
      (fragment.program start [done]
        (walkCells outer padding scratch.cells seed
          (Symbol.seedEnd :: right)) (outer.length + head)).EndsIn
        ⟨done, .ofCells
          (walkCells outer (max padding 1) scratch.cells
            (overwritten scratch seed) (Symbol.seedEnd :: right))
          (outer.length + max padding 1) Symbol.blank⟩ := by
  obtain ⟨hfits, fragment, hfragment, hrules⟩ := commitSeed_comprises start
    done layout ns (hlabels.not_owns start List.mem_cons_self)
  have hacts (program : Program) (hfollows : program.Follows
      (commitSeedRules start done layout ns)) :
      Acts program layout ns commitEffect
        (fun seed => seed.length = layout.wordLength)
        (Symbol.seedEnd :: right) :=
    commitVisitRules_acts (follows_visitRules hfollows)
  refine ⟨fragment, hfragment, ?_⟩
  have hends := walk_endsIn scratch hrules (hlabels.state_notMem hfits) hacts
    hpadding hhead hseed
  rwa [← hseed, walked_commitEffect_eq_overwritten] at hends

end Fragment

/-- The scratch word may be shorter than the seed. -/
theorem commitSeed_endsIn_short_scratch :
    (Namespace.mk "commit").Outside ["entry", "exit"] ∧
      ∃ fragment,
        commitSeed "entry" "exit" ⟨3, by decide⟩ ⟨"commit"⟩ = .ok fragment ∧
          (fragment.program "entry" ["exit"] "__01@101#0$".toList 1).EndsIn
            ⟨"exit", .ofCells "__01@011#0$".toList 2 Symbol.blank⟩ := by
  have hlabels : (Namespace.mk "commit").Outside ["entry", "exit"] :=
    Namespace.outside_of_notMem _ (by decide) (by decide)
  obtain ⟨fragment, hfragment, hends⟩ := commitSeed_endsIn "entry" "exit"
    ⟨3, by decide⟩ ⟨"commit"⟩ hlabels [false, true] [true, false, true] rfl
    [] "0$".toList 2 1 (Or.inr Nat.two_pos) (by decide)
  exact ⟨hlabels, fragment, hfragment, hends⟩

/-! ## Connectedness -/

section Connected

variable {program : Program} {origin start done : String} {layout : Layout}
  {ns : Namespace}

theorem isKnown_commitVisit {index : Nat} {bit : Bool}
    (hfollows : program.Follows (commitVisitRules ns (visit ns index bit))) :
    program.isKnown (visit ns index bit).state = true := by
  simp only [commitVisitRules, Program.follows_append, Symbol.bits,
    List.map_cons, Program.follows_cons] at hfollows
  obtain ⟨hseek, hwrite, -⟩ := hfollows
  exact isKnown_visit_of_seek hseek (Program.isKnown_of_transition? hwrite)

theorem commitVisitRules_returns
    (hfollows : ∀ index < layout.wordLength, ∀ bit, program.Follows
      (commitVisitRules ns (visit ns index bit))) :
    Returns program origin layout ns (commitVisitRules ns) := by
  intro index hindex bit hstart hknown
  have hrules := hfollows index hindex bit
  simp only [commitVisitRules, Program.follows_append, Symbol.bits,
    List.map_cons, List.map_nil, Program.follows_cons] at hrules ⊢
  obtain ⟨hseek, hwrite, -⟩ := hrules
  obtain ⟨hconnects, htarget⟩ := seek_connects hseek hstart
    (Program.isKnown_of_transition? hwrite)
  have hback := htarget.next hwrite (hknown bit)
  refine ⟨?_, hback⟩
  rw [Program.connects_append]
  refine ⟨hconnects, ?_⟩
  simp only [Program.connects_cons, Program.connects_nil, and_true]
  exact ⟨⟨htarget, hback⟩, htarget, hback⟩

/-- All states of the commit can be reached from its start state, and it leads
nowhere else than to its end. -/
theorem commitSeed_connects
    (hfollows : program.Follows (commitSeedRules start done layout ns))
    (hstart : program.Joins origin start)
    (hdone : program.isKnown done = true) :
    program.Connects origin (commitSeedRules start done layout ns) ∧
      program.Joins origin done := by
  have hvisits := follows_visitRules hfollows
  exact walk_connects hfollows
    (fun index hindex bit => isKnown_commitVisit (hvisits index hindex bit))
    (commitVisitRules_returns hvisits) hstart hdone

end Connected

end XorOrbit.Synthesis
