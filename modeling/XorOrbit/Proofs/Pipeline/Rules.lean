import Mathlib.Data.List.Forall2
import XorOrbit.Proofs.Subroutine
import XorOrbit.Synthesis.Pipeline

/-!
# The rules of a generator's program

The subroutines of the pipeline are at places that are apart, so they can be
merged whatever the generator is.
-/

namespace XorOrbit.Synthesis

open DetectRepeat (detectRepeatRules)

/-- The places of the subroutines. -/
def places : List Place :=
  [⟨startState, ⟨""⟩⟩, ⟨"scan_initial", ⟨"detect_initial"⟩⟩,
    ⟨"cycle", ⟨"copy"⟩⟩,
    ⟨"shift_a", ⟨"xor_" ++ "a"⟩⟩, ⟨"commit_a", ⟨"update_" ++ "a"⟩⟩,
    ⟨"shift_b", ⟨"xor_" ++ "b"⟩⟩, ⟨"commit_b", ⟨"update_" ++ "b"⟩⟩,
    ⟨"shift_c", ⟨"xor_" ++ "c"⟩⟩, ⟨"commit_c", ⟨"update_" ++ "c"⟩⟩,
    ⟨"scan", ⟨"detect"⟩⟩]

theorem places_apart : places.Pairwise Place.Apart := by
  decide

theorem places_plain : ∀ place ∈ places, place.Plain := by
  decide

section Pipeline

variable (generator : Generator) (layout : Layout)

theorem stages_eq : stages generator layout =
    [⟨"a", (generator.offsets layout).1, "shift_a", "commit_a", "shift_b"⟩,
      ⟨"b", (generator.offsets layout).2.1, "shift_b", "commit_b",
        "shift_c"⟩,
      ⟨"c", (generator.offsets layout).2.2, "shift_c", "commit_c",
        "scan"⟩] :=
  rfl

/-- The rules of the two subroutines of a stage. -/
def stageRules (stage : Stage) : List (List Rule) :=
  [xorOffsetRules stage.shift stage.commit stage.offset layout
      ⟨"xor_" ++ stage.suffix⟩,
    commitSeedRules stage.commit stage.next layout
      ⟨"update_" ++ stage.suffix⟩]

/-- The rules of all subroutines, in the order of their places. -/
def pipelineRules : List (List Rule) :=
  [startRules,
    detectRepeatRules "scan_initial" "cycle" acceptState layout
      ⟨"detect_initial"⟩,
    copySeedRules "cycle" "shift_a" ⟨"copy"⟩] ++
  (stages generator layout).flatMap (stageRules layout) ++
  [detectRepeatRules "scan" "cycle" acceptState layout ⟨"detect"⟩]

/-- The labels of the states at each place. -/
def pipelineRows : List (List (Label × List Char)) :=
  [[([], Symbol.bits ++ [Symbol.seedStart])],
    DetectRepeat.rows layout, copySeedRows] ++
  (stages generator layout).flatMap (fun stage =>
    [ScratchWalk.rows layout (xorDistance layout stage.offset),
      ScratchWalk.rows layout id]) ++
  [DetectRepeat.rows layout]

/-- The outlines of all subroutines. -/
def pipelineOutlines : List Outline :=
  Place.outlines places (pipelineRows generator layout)

/-- The two subroutines of a stage. -/
def stageSubroutines (stage : Stage) : List Subroutine :=
  [⟨⟨stage.shift, ⟨"xor_" ++ stage.suffix⟩⟩,
      .xorOffset stage.commit stage.offset layout⟩,
    ⟨⟨stage.commit, ⟨"update_" ++ stage.suffix⟩⟩,
      .commitSeed stage.next layout⟩]

/-- The subroutines of the pipeline; they follow the start at the first
place. -/
def subroutines : List Subroutine :=
  [⟨⟨"scan_initial", ⟨"detect_initial"⟩⟩,
      .detectRepeat "cycle" acceptState layout⟩,
    ⟨⟨"cycle", ⟨"copy"⟩⟩, .copySeed "shift_a"⟩] ++
  (stages generator layout).flatMap (stageSubroutines layout) ++
  [⟨⟨"scan", ⟨"detect"⟩⟩, .detectRepeat "cycle" acceptState layout⟩]

theorem dot_notMem_start : ∀ subroutine ∈ subroutines generator layout,
    '.' ∉ subroutine.place.start.toList := by
  intro subroutine hsubroutine
  have hplace : subroutine.place ∈ places :=
    List.mem_cons_of_mem _ (List.mem_map_of_mem hsubroutine)
  exact (places_plain _ hplace).1

theorem nodup_pipelineRows :
    ∀ rows ∈ pipelineRows generator layout, (rows.map Prod.fst).Nodup := by
  have hrows : pipelineRows generator layout =
      [([], Symbol.bits ++ [Symbol.seedStart])] ::
        (subroutines generator layout).map (·.rows) := rfl
  rw [hrows, List.forall_mem_cons, List.forall_mem_map]
  exact ⟨by simp, fun subroutine _ => subroutine.nodup_labels⟩

/-- No two states of the program have the same name. -/
theorem nodup_pipelineStates :
    (Outline.states (pipelineOutlines generator layout).flatten).Nodup :=
  Place.nodup_states_outlines places_apart
    (fun place hplace => (places_plain place hplace).1)
    (nodup_pipelineRows generator layout)

theorem fits_start : Outline.Fits
    [(startState, Symbol.bits ++ [Symbol.seedStart])] startRules :=
  Outline.Fits.single (by simp [startRules, Rule.key]) (by decide)
    (by decide)

/-- The pipeline merges its subroutines one after the other. -/
theorem pipeline_eq : pipeline generator layout =
    Fragment.empty.merge (.ofRules startRules) >>=
      (subroutines generator layout).foldlM Subroutine.mergeInto := by
  simp only [pipeline, subroutines, stageSubroutines, stages_eq,
    List.flatMap_cons, List.flatMap_nil, List.cons_append, List.nil_append,
    List.foldlM_cons, List.foldlM_nil, addStage, Subroutine.mergeInto,
    Subroutine.build, bind_assoc, bind_pure]
  rfl

/-- The fragments of the subroutines can be built, and merging them gives the
fragment of the program. -/
theorem pipeline_pieces :
    ∃ pieces : List Piece,
      pieces.map (·.outline) = pipelineOutlines generator layout ∧
        pieces.map (·.rules) = pipelineRules generator layout ∧
        pipeline generator layout = pieces.foldlM
          (fun merged piece => merged.merge piece.fragment)
            Fragment.empty := by
  obtain ⟨pieces, houtlines, hruless, hfold⟩ :=
    Subroutine.exists_pieces _ (dot_notMem_start generator layout)
  refine ⟨⟨_, _, _, fits_start,
    Fragment.comprises_ofRules fits_start (by simp)⟩ :: pieces, ?_, ?_, ?_⟩
  · rw [List.map_cons, houtlines]
    rfl
  · rw [List.map_cons, hruless]
    rfl
  · rw [pipeline_eq, List.foldlM_cons]
    exact bind_congr fun merged => hfold merged

/-- The fragment of the program has the rules of all subroutines and no
others. -/
theorem pipeline_comprises :
    List.Forall₂ Outline.Fits (pipelineOutlines generator layout)
        (pipelineRules generator layout) ∧
      ∃ fragment, pipeline generator layout = .ok fragment ∧
        fragment.Comprises (pipelineRules generator layout).flatten := by
  obtain ⟨pieces, houtlines, hrules, hpipeline⟩ :=
    pipeline_pieces generator layout
  have hnodup := nodup_pipelineStates generator layout
  rw [← houtlines, ← List.flatMap_def] at hnodup
  obtain ⟨merged, hmerged, hcomprises⟩ := Piece.foldlM_merge pieces
    Fragment.comprises_empty Outline.Fits.nil hnodup
  rw [List.nil_append, List.flatMap_def, hrules] at hcomprises
  refine ⟨?_, merged, hpipeline.trans hmerged, hcomprises⟩
  rw [← houtlines, ← hrules, List.forall₂_map_left_iff,
    List.forall₂_map_right_iff]
  exact List.forall₂_same.mpr fun piece _ => piece.fits

end Pipeline

end XorOrbit.Synthesis
