import XorOrbit.Proofs.ScratchWalk.Alone
import XorOrbit.Proofs.ScratchWalk.Outline

/-!
# Visitors of a walk

A walk asks its visitor for one fragment after the other, so a visitor can take
notes of what it is asked for.  The notes do not change the walk, and they show
that every value of every scratch bit is visited once and in order.

The simplest visitor turns around on the first seed bit and brings back a bit
that depends on the visit alone.  Its walk applies a function to the scratch
word, bit by bit.
-/

namespace XorOrbit.Synthesis

open ScratchWalk

/-! ## Visitors that take notes -/

/-- The walk with a visitor that has effects: it is asked for one visit after
the other, as long as its answers can be merged. -/
def scratchWalkM {m : Type → Type} [Monad m] (start done : String)
    (layout : Layout) (ns : Namespace) (act : Visit → m Fragment) :
    ExceptT Error m Fragment := do
  let walked ← (visits layout ns).foldlM (fun fragment visit => do
    let answer ← act visit
    MonadExcept.ofExcept
      ((fragment.addAll (approachRules start layout ns visit)).merge answer))
    Fragment.empty
  return walked.addAll (homeRules done ns)

namespace ScratchWalk

/-- The visitor that notes every visit and then answers as `act` does. -/
def noting {σ : Type} (note : σ → Visit → σ) (act : Visit → Fragment)
    (visit : Visit) : StateM σ Fragment := do
  modify (note · visit)
  return act visit

section Noting

variable {σ : Type} (note : σ → Visit → σ) (act : Visit → Fragment)

theorem run_noting
    (join : Fragment → Visit → Fragment → Except Error Fragment)
    (visit : Visit) (fragment : Fragment) (notes : σ) :
    (do
      let answer ← noting note act visit
      MonadExcept.ofExcept (join fragment visit answer) :
        ExceptT Error (StateM σ) Fragment).run.run notes =
      (join fragment visit (act visit), note notes visit) := by
  change (MonadExcept.ofExcept (m := ExceptT Error (StateM σ))
    (join fragment visit (act visit))).run.run (note notes visit) = _
  cases join fragment visit (act visit) with
  | error fault => rfl
  | ok next => rfl

/-- The visitor is asked in the order of the visits, up to the first answer that
cannot be joined with the earlier ones. -/
theorem run_foldlM_noting
    (join : Fragment → Visit → Fragment → Except Error Fragment)
    (items : List Visit) (fragment : Fragment) (notes : σ) :
    let joined := items.foldlM (fun fragment visit =>
      join fragment visit (act visit)) fragment
    ∃ asked, asked <+: items ∧
      (items.foldlM (m := ExceptT Error (StateM σ)) (fun fragment visit => do
        let answer ← noting note act visit
        MonadExcept.ofExcept (join fragment visit answer)) fragment).run.run
          notes = (joined, asked.foldl note notes) ∧
      ∀ walked, joined = .ok walked → asked = items := by
  induction items generalizing fragment notes with
  | nil => exact ⟨[], List.prefix_refl [], rfl, fun _ _ => rfl⟩
  | cons item items ih =>
      have hstep := run_noting note act join item fragment notes
      simp only [List.foldlM_cons]
      rw [ExceptT.run_bind, StateT.run_bind, hstep]
      cases hjoin : join fragment item (act item) with
      | error fault =>
          refine ⟨[item], List.prefix_append [item] items, rfl, ?_⟩
          intro walked hwalked
          cases hwalked
      | ok next =>
          obtain ⟨asked, hasked, hrun, hall⟩ := ih next (note notes item)
          refine ⟨item :: asked, List.cons_prefix_cons.mpr ⟨rfl, hasked⟩,
            hrun, ?_⟩
          intro walked hwalked
          rw [hall walked hwalked]

/-- The notes do not change the walk.  If it succeeds the visitor has been asked
for all visits in their order, and if not only for the first ones. -/
theorem run_scratchWalkM_noting (start done : String) (layout : Layout)
    (ns : Namespace) (notes : σ) :
    ∃ asked, asked <+: visits layout ns ∧
      (scratchWalkM start done layout ns (noting note act)).run.run notes =
        (scratchWalk start done layout ns act, asked.foldl note notes) ∧
      ∀ fragment, scratchWalk start done layout ns act = .ok fragment →
        asked = visits layout ns := by
  obtain ⟨asked, hasked, hrun, hall⟩ := run_foldlM_noting note act
    (fun fragment visit => (fragment.addAll
      (approachRules start layout ns visit)).merge)
    (visits layout ns) Fragment.empty notes
  refine ⟨asked, hasked, ?_⟩
  rw [scratchWalkM, scratchWalk, ExceptT.run_bind, StateT.run_bind, hrun]
  cases hwalked : (visits layout ns).foldlM (fun fragment visit =>
      (fragment.addAll (approachRules start layout ns visit)).merge
        (act visit)) Fragment.empty with
  | error fault =>
      refine ⟨rfl, ?_⟩
      intro fragment hfragment
      cases hfragment
  | ok walked => exact ⟨rfl, fun _ _ => hall walked hwalked⟩

end Noting

/-- Index and value of every visit, as a visitor can note them. -/
theorem foldl_visits (layout : Layout) (ns : Namespace) :
    (visits layout ns).foldl
        (fun seen visit => seen ++ [(visit.index, visit.bit)]) [] =
      (List.range layout.wordLength).flatMap fun index =>
        [(index, false), (index, true)] := by
  rw [List.foldl_append_eq_append, List.nil_append, ← List.flatMap_def,
    visits, List.flatMap_assoc]
  rfl

/-! ## Visitors that turn around -/

/-- What is done at a visit: turn around on the first seed bit and come back
with the bit that is chosen for the visit. -/
def turnRules (choose : Nat → Bool → Bool) (visit : Visit) : List Rule :=
  Phrase.cross visit.state Symbol.bits .left
    (visit.back (choose visit.index visit.bit))

/-- The chosen bit replaces the scratch bit, and the seed is not changed. -/
def turnEffect (choose : Nat → Bool → Bool) : Effect :=
  fun index bit seed => (choose index bit, seed)

/-- The visits see no more of the seed than its first bit, so anything may stand
behind it. -/
theorem turnRules_acts {program : Program} {layout : Layout} {ns : Namespace}
    {choose : Nat → Bool → Bool} (first : Bool) {right : List Char}
    (hfollows : ∀ index < layout.wordLength, ∀ bit,
      program.Follows (turnRules choose (visit ns index bit))) :
    Acts program layout ns (turnEffect choose) (· = [first]) right := by
  intro index hindex bit seed hseed
  obtain rfl : seed = [first] := hseed
  refine ⟨rfl, ?_⟩
  intro via left hvia
  refine ⟨[], Word.cells [first], rfl, ?_⟩
  rw [List.append_nil]
  exact cross_visit_trace (hfollows index hindex bit)
    (fun state hstate => hvia state [first] hstate rfl)

end ScratchWalk

section Turn

variable (start done : String) (layout : Layout) (ns : Namespace)
  (choose : Nat → Bool → Bool)

/-- A visit has no states besides the one that it begins in. -/
theorem fits_turn (number : Nat) (value : Bool) :
    (ns.outline start (seekRows number value 0)).Fits
      (turnRules choose (visit ns number value)) := by
  have hfits := fits_seek start ns number value 0
    (map_key_cross (visit ns number value).state
      ((visit ns number value).back (choose number value)) Symbol.bits .left)
  simpa [seekRules, turnRules, visit] using hfits

/-- A walk can be made of any choice of bits, and its visitor is asked for all
visits in their order.  On its own the walk replaces every scratch bit that is
visited by the chosen one, with the head on the first scratch bit at the end, or
on the seed start if there is none.  Everything else is as before. -/
theorem scratchWalk_turn_endsIn (hlabels : ns.Outside [start, done])
    (scratch : Word) (first : Bool) (outer right : List Char)
    (padding head : Nat) (hpadding : outer = [] ∨ 0 < padding)
    (hhead : head ≤ padding) :
    ∃ fragment,
      scratchWalk start done layout ns (.ofRules <| turnRules choose ·) =
        .ok fragment ∧
      (scratchWalkM start done layout ns
        (noting (fun seen visit => seen ++ [(visit.index, visit.bit)])
          (.ofRules <| turnRules choose ·))).run.run [] =
        (.ok fragment, (List.range layout.wordLength).flatMap fun index =>
          [(index, false), (index, true)]) ∧
      (fragment.program start [done]
        (walkCells outer padding scratch.cells [first] right)
        (outer.length + head)).EndsIn
          ⟨done, .ofCells
            (walkCells outer (max padding 1)
              (Word.cells <| scratch.mapIdx fun index bit =>
                if index < layout.wordLength then choose index bit else bit)
              [first] right)
            (outer.length + max padding 1) Symbol.blank⟩ := by
  obtain ⟨hfits, fragment, hfragment, hrules⟩ := scratchWalk_comprises start
    done layout ns (hlabels.not_owns start List.mem_cons_self)
    fun number _ value => fits_turn start ns choose number value
  refine ⟨fragment, hfragment, ?_, ?_⟩
  · obtain ⟨asked, -, hrun, hall⟩ := run_scratchWalkM_noting
      (fun seen visit => seen ++ [(visit.index, visit.bit)])
      (.ofRules <| turnRules choose ·) start done layout ns []
    rw [hrun, hfragment, hall fragment hfragment, foldl_visits]
  · have hacts (program : Program) (hfollows : program.Follows
        (walkRules start done layout ns (turnRules choose))) :
        Acts program layout ns (turnEffect choose) (· = [first]) right :=
      turnRules_acts first (follows_visitRules hfollows)
    have hends := walk_endsIn scratch hrules (hlabels.state_notMem hfits)
      hacts hpadding hhead rfl
    rw [walked_of_constant fun _ _ => rfl] at hends
    simpa [turnEffect] using hends

end Turn

/-- Scratch bits beyond the length of a word are not visited, and cells further
left may hold anything. -/
theorem scratchWalk_turn_endsIn_long_scratch :
    let act := fun visit =>
      Fragment.ofRules (turnRules (fun index bit => bit != (index != 1)) visit)
    (Namespace.mk "walk").Outside ["entry", "exit"] ∧
      ∃ fragment,
        scratchWalk "entry" "exit" ⟨2, by decide⟩ ⟨"walk"⟩ act =
          .ok fragment ∧
        (scratchWalkM "entry" "exit" ⟨2, by decide⟩ ⟨"walk"⟩
          (noting (fun seen visit => seen ++ [(visit.index, visit.bit)])
            act)).run.run [] =
          (.ok fragment, [(0, false), (0, true), (1, false), (1, true)]) ∧
        (fragment.program "entry" ["exit"] "A_110@01#".toList 1).EndsIn
          ⟨"exit", .ofCells "A_010@01#".toList 2 Symbol.blank⟩ := by
  intro act
  have hlabels : (Namespace.mk "walk").Outside ["entry", "exit"] :=
    Namespace.outside_of_notMem _ (by decide) (by decide)
  obtain ⟨fragment, hfragment, hasked, hends⟩ := scratchWalk_turn_endsIn
    "entry" "exit" ⟨2, by decide⟩ ⟨"walk"⟩
    (fun index bit => bit != (index != 1)) hlabels [true, true, false] false
    ['A'] ['1', '#'] 1 0 (Or.inr Nat.one_pos) (Nat.zero_le 1)
  exact ⟨hlabels, fragment, hfragment, hasked, hends⟩

end XorOrbit.Synthesis
