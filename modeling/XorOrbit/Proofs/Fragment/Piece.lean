import XorOrbit.Proofs.Fragment.Comprises

/-!
# Pieces of a program

A piece is a fragment together with its rules and their outline.  Pieces whose
states do not overlap can be merged one after the other.
-/

namespace XorOrbit

/-- A fragment with its rules and the states that they are for. -/
structure Piece where
  outline : Outline
  rules : List Rule
  fragment : Fragment
  fits : outline.Fits rules
  comprises : fragment.Comprises rules

namespace Piece

/-- The pieces are merged in their order. -/
theorem foldlM_merge (pieces : List Piece)
    {fragment : Fragment} {outline : Outline} {rules : List Rule}
    (hrules : fragment.Comprises rules) (hfits : outline.Fits rules)
    (hnodup : (outline ++ pieces.flatMap (·.outline)).states.Nodup) :
    ∃ merged, pieces.foldlM
        (fun merged piece => merged.merge piece.fragment) fragment =
          .ok merged ∧
      merged.Comprises (rules ++ pieces.flatMap (·.rules)) := by
  induction pieces generalizing fragment outline rules with
  | nil => exact ⟨fragment, rfl, by simpa using hrules⟩
  | cons piece pieces ih =>
      rw [List.flatMap_cons, ← List.append_assoc] at hnodup
      have hfirst := hnodup
      rw [Outline.states_append, List.nodup_append', Outline.states_append,
        List.nodup_append'] at hfirst
      obtain ⟨⟨-, -, hdisjoint⟩, -, -⟩ := hfirst
      obtain ⟨merged, hmerged, hrules'⟩ := hrules.merge_of_fits
        piece.comprises hfits piece.fits hdisjoint
      obtain ⟨final, hfinal, hcomprises⟩ := ih hrules'
        (hfits.append piece.fits) hnodup
      refine ⟨final, ?_, by simpa using hcomprises⟩
      rw [List.foldlM_cons, hmerged]
      exact hfinal

end Piece

/-! ## Places of outlines -/

/-- The start state and the namespace of a subroutine. -/
structure Place where
  start : String
  ns : Namespace
deriving DecidableEq

namespace Place

/-- The names of the place have no dot. -/
def Plain (place : Place) : Prop :=
  '.' ∉ place.start.toList ∧ '.' ∉ place.ns.label.toList

instance (place : Place) : Decidable place.Plain := by
  unfold Plain
  infer_instance

/-- The places share neither the start state nor the namespace. -/
def Apart (first second : Place) : Prop :=
  first.start ≠ second.start ∧ first.ns ≠ second.ns

instance (first second : Place) : Decidable (first.Apart second) := by
  unfold Apart
  infer_instance

/-- The outline with the given labels at the place. -/
def outline (place : Place) (rows : List (Label × List Char)) : Outline :=
  place.ns.outline place.start rows

/-- The state is the start state or belongs to the namespace. -/
def Has (place : Place) (state : String) : Prop :=
  state = place.start ∨ place.ns.Owns state

/-- A state without a dot is not inside a subroutine. -/
theorem Has.eq_start {place : Place} {state : String}
    (hhas : place.Has state) (hdot : '.' ∉ state.toList) :
    state = place.start :=
  hhas.resolve_right (Namespace.not_owns_of_notMem hdot)

theorem has_of_mem_states {place : Place} {rows : List (Label × List Char)}
    {state : String} (hstate : state ∈ (place.outline rows).states) :
    place.Has state :=
  Namespace.eq_or_owns_of_mem_states_outline hstate

/-- The outlines with the given labels at each of the places. -/
def outlines (places : List Place)
    (rowss : List (List (Label × List Char))) : List Outline :=
  (places.zip rowss).map fun item => item.1.outline item.2

/-- A state listed in the outlines is listed at one of the places. -/
theorem exists_outline_of_mem_states {places : List Place}
    {rowss : List (List (Label × List Char))} {state : String}
    (hstate : state ∈ Outline.states (outlines places rowss).flatten) :
    ∃ place ∈ places, ∃ rows, state ∈ (place.outline rows).states := by
  rw [Outline.states, List.map_flatten, List.mem_flatten] at hstate
  obtain ⟨states, hstates, hstate⟩ := hstate
  obtain ⟨outline, houtline, rfl⟩ := List.mem_map.mp hstates
  obtain ⟨⟨place, rows⟩, hzip, rfl⟩ := List.mem_map.mp houtline
  exact ⟨place, (List.of_mem_zip hzip).1, rows, hstate⟩

theorem exists_has_of_mem_states {places : List Place}
    {rowss : List (List (Label × List Char))} {state : String}
    (hstate : state ∈ Outline.states (outlines places rowss).flatten) :
    ∃ place ∈ places, place.Has state := by
  obtain ⟨place, hplace, rows, hstate⟩ := exists_outline_of_mem_states hstate
  exact ⟨place, hplace, has_of_mem_states hstate⟩

/-- Outlines at places that are apart list no common state. -/
theorem Apart.disjoint_states {first second : Place}
    (hapart : first.Apart second) (hfirst : '.' ∉ first.start.toList)
    (hsecond : '.' ∉ second.start.toList)
    (rows rows' : List (Label × List Char)) :
    (first.outline rows).states.Disjoint (second.outline rows').states := by
  intro state hmem hmem'
  rw [outline, Namespace.states_outline] at hmem hmem'
  obtain ⟨label, -, rfl⟩ := List.mem_map.mp hmem
  obtain ⟨label', -, heq⟩ := List.mem_map.mp hmem'
  rcases Namespace.eq_or_eq_of_locate_eq hfirst hsecond heq.symm with
    hstart | hns
  · exact hapart.1 hstart
  · exact hapart.2 hns

/-- Outlines at places that are apart list no state twice, if none of them
lists a label twice. -/
theorem nodup_states_outlines {places : List Place}
    {rowss : List (List (Label × List Char))}
    (hapart : places.Pairwise Apart)
    (hstarts : ∀ place ∈ places, '.' ∉ place.start.toList)
    (hrows : ∀ rows ∈ rowss, (rows.map Prod.fst).Nodup) :
    (Outline.states (outlines places rowss).flatten).Nodup := by
  induction places generalizing rowss with
  | nil => simp [outlines]
  | cons place places ih =>
      cases rowss with
      | nil => simp [outlines]
      | cons rows rowss =>
          rw [List.pairwise_cons] at hapart
          rw [List.forall_mem_cons] at hstarts hrows
          rw [outlines, List.zip_cons_cons, List.map_cons, List.flatten_cons,
            Outline.states_append, List.nodup_append']
          refine ⟨Namespace.nodup_states_outline
            (Namespace.not_owns_of_notMem hstarts.1) hrows.1,
            ih hapart.2 hstarts.2 hrows.2, ?_⟩
          intro state hmem hmem'
          obtain ⟨other, hother, rows', hmem'⟩ :=
            exists_outline_of_mem_states hmem'
          exact (hapart.1 other hother).disjoint_states hstarts.1
            (hstarts.2 other hother) rows rows' hmem hmem'

end Place

end XorOrbit
