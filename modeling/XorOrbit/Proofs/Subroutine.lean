import XorOrbit.Proofs.CommitSeed
import XorOrbit.Proofs.CopySeed.Connected
import XorOrbit.Proofs.CopySeed.Outline
import XorOrbit.Proofs.DetectRepeat.Connected
import XorOrbit.Proofs.DetectRepeat.Outline
import XorOrbit.Proofs.Fragment.Alone
import XorOrbit.Proofs.Fragment.Piece
import XorOrbit.Proofs.XorOffset

/-!
# Subroutines at any place

What the four subroutines have in common, wherever they start and whatever
their namespace is called: their fragments can be built and are closed, and
fragments at places that are apart can be merged in any order.
-/

namespace XorOrbit.Synthesis

/-- What a subroutine does, and the states in which it ends. -/
inductive Task
  | copySeed (done : String)
  | xorOffset (done : String) (offset : Int) (layout : Layout)
  | commitSeed (done : String) (layout : Layout)
  | detectRepeat (fresh repeated : String) (layout : Layout)

/-- A task at the place where it starts and keeps its states. -/
structure Subroutine where
  place : Place
  task : Task

namespace Subroutine

/-- The states in which the subroutine ends. -/
def exits (subroutine : Subroutine) : List String :=
  match subroutine.task with
  | .copySeed done => [done]
  | .xorOffset done _ _ => [done]
  | .commitSeed done _ => [done]
  | .detectRepeat fresh repeated _ => [fresh, repeated]

/-- The fragment of the subroutine. -/
def build (subroutine : Subroutine) : Except Error Fragment :=
  let ⟨⟨start, ns⟩, task⟩ := subroutine
  match task with
  | .copySeed done => .ok (Synthesis.copySeed start done ns)
  | .xorOffset done offset layout =>
    Synthesis.xorOffset start done offset layout ns
  | .commitSeed done layout => Synthesis.commitSeed start done layout ns
  | .detectRepeat fresh repeated layout =>
    Synthesis.detectRepeat start fresh repeated layout ns

/-- The rules of the subroutine. -/
def rules (subroutine : Subroutine) : List Rule :=
  let ⟨⟨start, ns⟩, task⟩ := subroutine
  match task with
  | .copySeed done => copySeedRules start done ns
  | .xorOffset done offset layout => xorOffsetRules start done offset layout ns
  | .commitSeed done layout => commitSeedRules start done layout ns
  | .detectRepeat fresh repeated layout =>
    DetectRepeat.detectRepeatRules start fresh repeated layout ns

/-- The labels of the subroutine's states, each with the symbols that it
reads. -/
def rows (subroutine : Subroutine) : List (Label × List Char) :=
  match subroutine.task with
  | .copySeed _ => copySeedRows
  | .xorOffset _ offset layout =>
    ScratchWalk.rows layout (xorDistance layout offset)
  | .commitSeed _ layout => ScratchWalk.rows layout id
  | .detectRepeat _ _ layout => DetectRepeat.rows layout

/-- The states of the subroutine. -/
def outline (subroutine : Subroutine) : Outline :=
  subroutine.place.outline subroutine.rows

theorem nodup_labels (subroutine : Subroutine) :
    (subroutine.rows.map Prod.fst).Nodup := by
  obtain ⟨place, task⟩ := subroutine
  cases task with
  | copySeed done => exact nodup_copySeedLabels
  | xorOffset done offset layout => exact ScratchWalk.nodup_labels layout _
  | commitSeed done layout => exact ScratchWalk.nodup_labels layout _
  | detectRepeat fresh repeated layout =>
      exact DetectRepeat.nodup_labels layout

/-- The state without a label, in which a subroutine starts, is listed. -/
theorem nil_mem_labels (subroutine : Subroutine) :
    [] ∈ subroutine.rows.map Prod.fst := by
  have hwalk (layout : Layout) (distance : Nat → Nat) :
      [] ∈ (ScratchWalk.rows layout distance).map Prod.fst := by
    have hfirst : 0 ∈ List.range layout.wordLength :=
      List.mem_range.mpr layout.wordLength_pos
    rw [ScratchWalk.rows, List.map_append, List.map_flatMap]
    refine List.mem_append_left _ (List.mem_flatMap.mpr ⟨0, hfirst, ?_⟩)
    simp [ScratchWalk.scratchBitRows, ScratchWalk.approachRows,
      ScratchWalk.bitRows, ScratchWalk.bitLabel]
  obtain ⟨place, task⟩ := subroutine
  cases task with
  | copySeed done => exact List.mem_cons_self
  | xorOffset done offset layout => exact hwalk layout _
  | commitSeed done layout => exact hwalk layout _
  | detectRepeat fresh repeated layout => exact List.mem_cons_self

theorem start_mem_states (subroutine : Subroutine) :
    subroutine.place.start ∈ subroutine.outline.states := by
  rw [outline, Place.outline, Namespace.states_outline]
  exact List.mem_map.mpr ⟨[], subroutine.nil_mem_labels, rfl⟩

/-- The fragment can be built and has the rules of the subroutine. -/
theorem build_comprises (subroutine : Subroutine)
    (hstart : '.' ∉ subroutine.place.start.toList) :
    subroutine.outline.Fits subroutine.rules ∧
      ∃ fragment, subroutine.build = .ok fragment ∧
        fragment.Comprises subroutine.rules := by
  obtain ⟨⟨start, ns⟩, task⟩ := subroutine
  have howns : ¬ ns.Owns start := Namespace.not_owns_of_notMem hstart
  cases task with
  | copySeed done =>
      exact ⟨fits_copySeed start done ns, _, rfl,
        copySeed_comprises start done ns howns⟩
  | xorOffset done offset layout =>
      exact xorOffset_comprises start done offset layout ns howns
  | commitSeed done layout =>
      exact commitSeed_comprises start done layout ns howns
  | detectRepeat fresh repeated layout =>
      exact ⟨DetectRepeat.fits_detectRepeat start fresh repeated layout ns,
        detectRepeat_comprises start fresh repeated layout ns howns⟩

/-- All states of the subroutine can be reached from the one it starts in, and
it leads nowhere else than to its exits. -/
theorem rules_connects {program : Program} {origin : String}
    {subroutine : Subroutine} (hfollows : program.Follows subroutine.rules)
    (hstart : program.Joins origin subroutine.place.start)
    (hexits : ∀ exit ∈ subroutine.exits, program.isKnown exit = true) :
    program.Connects origin subroutine.rules := by
  obtain ⟨⟨start, ns⟩, task⟩ := subroutine
  cases task with
  | copySeed done =>
      have hdone := hexits done List.mem_cons_self
      exact (copySeed_connects hfollows hstart hdone).1
  | xorOffset done offset layout =>
      have hdone := hexits done List.mem_cons_self
      exact (xorOffset_connects hfollows hstart hdone).1
  | commitSeed done layout =>
      have hdone := hexits done List.mem_cons_self
      exact (commitSeed_connects hfollows hstart hdone).1
  | detectRepeat fresh repeated layout =>
      have hfresh := hexits fresh List.mem_cons_self
      have hrepeated := hexits repeated
        (List.mem_cons_of_mem _ List.mem_cons_self)
      exact (detectRepeat_connects hfollows hstart hfresh hrepeated).1

/-! ## Closed fragments -/

/-- The fragment has no conflict.  Apart from the start, all its states belong
to the namespace; its rules lead to states that it defines or to an exit; and
each of its states can be reached from the start. -/
structure Closed (subroutine : Subroutine) (fragment : Fragment) : Prop where
  conflict_eq : fragment.conflict = none
  mem_not_owns_iff : ∀ state,
    state ∈ fragment.table ∧ ¬ subroutine.place.ns.Owns state ↔
      state = subroutine.place.start
  next_mem : ∀ state symbol transition,
    fragment.table.transition? state symbol = some transition →
      transition.nextState ∈ fragment.table ∨
        transition.nextState ∈ subroutine.exits
  reaches : ∀ state ∈ fragment.table,
    fragment.table.Reaches subroutine.place.start state

theorem exists_closed (subroutine : Subroutine)
    (hstart : '.' ∉ subroutine.place.start.toList) :
    ∃ fragment, subroutine.build = .ok fragment ∧
      subroutine.Closed fragment := by
  obtain ⟨hfits, fragment, hfragment, hrules⟩ :=
    subroutine.build_comprises hstart
  -- The fragment as a program of its own, which accepts in the exits.
  let program := fragment.program subroutine.place.start subroutine.exits [] 0
  have hdefined : ∀ state,
      state ∈ fragment.table ↔ state ∈ subroutine.outline.states := by
    intro state
    rw [hrules.mem_iff, hfits.mem_states_iff]
  have hmem : subroutine.place.start ∈ fragment.table :=
    (hdefined _).mpr subroutine.start_mem_states
  have hconnects : program.Connects subroutine.place.start
      subroutine.rules := by
    refine rules_connects hrules.follows_program
      ⟨Relation.ReflTransGen.refl, Program.isKnown_iff.mpr (Or.inr hmem)⟩ ?_
    intro exit hexit
    exact Program.isKnown_iff.mpr
      (Or.inl ((Fragment.isAccepting_program ..).mpr hexit))
  refine ⟨fragment, hfragment, hrules.conflict_eq, ?_, ?_, ?_⟩
  · intro state
    constructor
    · rintro ⟨hstate, howns⟩
      rw [hdefined] at hstate
      exact (Place.has_of_mem_states hstate).resolve_right howns
    · rintro rfl
      exact ⟨hmem, Namespace.not_owns_of_notMem hstart⟩
  · intro state symbol transition htransition
    obtain ⟨rule, hrule, -, rfl⟩ :=
      (hrules.transition_iff ..).mp htransition
    have hknown := (hconnects rule hrule).2.isKnown
    rw [Program.isKnown_iff, Fragment.isAccepting_program] at hknown
    exact hknown.symm
  · intro state hstate
    obtain ⟨rule, hrule, rfl⟩ := (hrules.mem_iff state).mp hstate
    exact (hconnects rule hrule).1.reaches

/-! ## Merging subroutines -/

/-- Builds the fragment of the subroutine and merges it into another one. -/
def mergeInto (merged : Fragment) (subroutine : Subroutine) :
    Except Error Fragment := do
  merged.merge (← subroutine.build)

/-- Merges the fragments of the subroutines in their order. -/
def mergeAll (subroutines : List Subroutine) : Except Error Fragment :=
  subroutines.foldlM mergeInto Fragment.empty

/-- Merging subroutines is merging the pieces that they make. -/
theorem exists_pieces (subroutines : List Subroutine)
    (hstarts : ∀ subroutine ∈ subroutines,
      '.' ∉ subroutine.place.start.toList) :
    ∃ pieces : List Piece,
      pieces.map (·.outline) = subroutines.map outline ∧
      pieces.map (·.rules) = subroutines.map rules ∧
      ∀ fragment, subroutines.foldlM mergeInto fragment =
        pieces.foldlM (fun merged piece => merged.merge piece.fragment)
          fragment := by
  induction subroutines with
  | nil => exact ⟨[], rfl, rfl, fun _ => rfl⟩
  | cons subroutine subroutines ih =>
      rw [List.forall_mem_cons] at hstarts
      obtain ⟨pieces, houtlines, hruless, hfold⟩ := ih hstarts.2
      obtain ⟨hfits, built, hbuilt, hrules⟩ :=
        subroutine.build_comprises hstarts.1
      refine ⟨⟨_, _, built, hfits, hrules⟩ :: pieces,
        by rw [List.map_cons, houtlines, List.map_cons],
        by rw [List.map_cons, hruless, List.map_cons], ?_⟩
      intro fragment
      rw [List.foldlM_cons, List.foldlM_cons, mergeInto, hbuilt]
      exact bind_congr fun merged => hfold merged

/-- Subroutines at places that are apart can be merged, and the result has the
rules of all of them. -/
theorem exists_mergeAll {subroutines : List Subroutine}
    (hstarts : ∀ subroutine ∈ subroutines,
      '.' ∉ subroutine.place.start.toList)
    (hapart : (subroutines.map (·.place)).Pairwise Place.Apart) :
    ∃ merged, mergeAll subroutines = .ok merged ∧
      merged.Comprises (subroutines.flatMap rules) := by
  obtain ⟨pieces, houtlines, hruless, hfold⟩ :=
    exists_pieces subroutines hstarts
  have hstates : Place.outlines (subroutines.map (·.place))
      (subroutines.map rows) = pieces.map (·.outline) := by
    rw [houtlines, Place.outlines, List.zip_map', List.map_map]
    rfl
  have hnodup : (Outline.states (pieces.flatMap (·.outline))).Nodup := by
    rw [List.flatMap_def, ← hstates]
    exact Place.nodup_states_outlines hapart
      (List.forall_mem_map.mpr hstarts)
      (List.forall_mem_map.mpr fun subroutine _ => subroutine.nodup_labels)
  obtain ⟨merged, hmerged, hcomprises⟩ := Piece.foldlM_merge pieces
    Fragment.comprises_empty Outline.Fits.nil hnodup
  refine ⟨merged, (hfold _).trans hmerged, ?_⟩
  rwa [List.nil_append, List.flatMap_def, hruless, ← List.flatMap_def]
    at hcomprises

/-- The fragment of every subroutine that starts in a state without a dot can
be built and is closed.  If such subroutines share neither start states nor
namespaces, their fragments can be merged, with the same result in every
order. -/
theorem closed_and_mergeable (subroutines : List Subroutine)
    (hstarts : ∀ subroutine ∈ subroutines,
      '.' ∉ subroutine.place.start.toList) :
    (∀ subroutine ∈ subroutines, ∃ fragment,
      subroutine.build = .ok fragment ∧ subroutine.Closed fragment) ∧
    ((subroutines.map (·.place)).Pairwise Place.Apart →
      ∃ merged, ∀ order, order.Perm subroutines →
        mergeAll order = .ok merged) := by
  refine ⟨fun subroutine hsubroutine =>
    subroutine.exists_closed (hstarts subroutine hsubroutine), ?_⟩
  intro hapart
  obtain ⟨merged, -, hrules⟩ := exists_mergeAll hstarts hapart
  refine ⟨merged, fun order horder => ?_⟩
  obtain ⟨other, hother, hrules'⟩ := exists_mergeAll
    (fun subroutine hsubroutine =>
      hstarts subroutine (horder.mem_iff.mp hsubroutine))
    (hapart.perm (horder.map _).symm
      fun hapart => ⟨hapart.1.symm, hapart.2.symm⟩)
  have hsame : other = merged := hrules'.eq_of_mem_iff hrules
    fun rule => (horder.flatMap_right rules).mem_iff
  rw [hother, hsame]

/-- The name of a namespace may begin with the name of another one and a
dot. -/
theorem closed_and_mergeable_nested_namespaces :
    let layout : Layout := ⟨2, by decide⟩
    let subroutines : List Subroutine :=
      [⟨⟨"copy", ⟨"walk"⟩⟩, .copySeed "xor"⟩,
        ⟨⟨"xor", ⟨"walk.xor"⟩⟩, .xorOffset "scan" (-1) layout⟩,
        ⟨⟨"scan", ⟨"walk.xor.log"⟩⟩, .detectRepeat "copy" "found" layout⟩]
    (∀ subroutine ∈ subroutines,
      '.' ∉ subroutine.place.start.toList) ∧
    (subroutines.map (·.place)).Pairwise Place.Apart ∧
      ∃ merged, ∀ order, order.Perm subroutines →
        mergeAll order = .ok merged := by
  intro layout subroutines
  have hstarts : ∀ subroutine ∈ subroutines,
      '.' ∉ subroutine.place.start.toList := by decide
  have hapart : (subroutines.map (·.place)).Pairwise Place.Apart := by decide
  exact ⟨hstarts, hapart, (closed_and_mergeable subroutines hstarts).2 hapart⟩

end Subroutine

end XorOrbit.Synthesis
