import XorOrbit.Proofs.Fragment.Comprises
import XorOrbit.Proofs.ScratchWalk.Trace

/-!
# The states of a walk over the scratch word

What a visit does is a parameter of the walk, but every visit defines a row of
states that step through the seed.  How far the row goes may depend on the
visit, so it is a parameter of the outline.
-/

namespace XorOrbit.Synthesis

namespace ScratchWalk

open XorOrbit.Part

/-- The label of the state that reads a scratch bit; for the first bit that is
the state in which the walk starts. -/
def bitLabel (number : Nat) : Label :=
  if number = 0 then [] else [word "bit", index number]

/-- The label of the state that stands on a seed bit. -/
def seekLabel (number : Nat) (value : Bool) (distance : Nat) : Label :=
  if distance = 0 then [word "act", index number, bit value]
  else [word "seek", index number, bit value, index distance]

/-- The states that read a scratch bit and come back to it. -/
def bitRows (number : Nat) : List (Label × List Char) :=
  [(bitLabel number,
      (if number = 0 then [Symbol.blank] else []) ++ Symbol.bits ++
        [Symbol.seedStart]),
    ([word "return", index number, bit false],
      Symbol.bits ++ [Symbol.seedStart] ++ Symbol.marks),
    ([word "return", index number, bit true],
      Symbol.bits ++ [Symbol.seedStart] ++ Symbol.marks)]

/-- The states that lead to a visit. -/
def approachRows (number : Nat) (value : Bool) : List (Label × List Char) :=
  (if value then [] else bitRows number) ++
    [([word "carry", index number, bit value],
      Symbol.bits ++ [Symbol.seedStart])]

/-- The states that go from the first seed bit to the given one. -/
def seekRows (number : Nat) (value : Bool) (distance : Nat) :
    List (Label × List Char) :=
  (List.range (distance + 1)).map fun step =>
    (seekLabel number value step, Symbol.bits)

/-- The states for one scratch bit. -/
def scratchBitRows (number distance : Nat) : List (Label × List Char) :=
  [false, true].flatMap fun value =>
    approachRows number value ++ seekRows number value distance

/-- All states of a walk; `distance` tells for every scratch bit how far into
the seed its visits go. -/
def rows (layout : Layout) (distance : Nat → Nat) :
    List (Label × List Char) :=
  (List.range layout.wordLength).flatMap (fun number =>
    scratchBitRows number (distance number)) ++
    [([word "rewind"],
      Symbol.bits ++ [Symbol.seedStart] ++ [Symbol.blank])]

/-! ## No label is listed twice -/

theorem nodup_seekLabels (number : Nat) (value : Bool) (distance : Nat) :
    ((seekRows number value distance).map Prod.fst).Nodup := by
  rw [seekRows, List.map_map]
  refine List.Nodup.map ?_ List.nodup_range
  intro first second heq
  simp only [Function.comp_def, seekLabel] at heq
  split at heq
  · split at heq
    · omega
    · simp at heq
  · split at heq
    · simp at heq
    · simpa using heq

/-- The labels of a visit. -/
def visitLabels (number : Nat) (value : Bool) (distance : Nat) :
    List Label :=
  [word "carry", index number, bit value] ::
    (seekRows number value distance).map Prod.fst

/-- The labels of a visit tell the scratch bit and its value. -/
theorem getD_visitLabels (number : Nat) (value : Bool) (distance : Nat) :
    ∀ label ∈ visitLabels number value distance,
      label.getD 1 (index 0) = index number ∧
        label.getD 2 (index 0) = bit value := by
  simp only [visitLabels, List.forall_mem_cons, seekRows, List.map_map,
    List.forall_mem_map, Function.comp_def, seekLabel]
  refine ⟨by simp, fun step _ => ?_⟩
  split <;> simp

theorem nodup_visitLabels (number : Nat) (value : Bool) (distance : Nat) :
    (visitLabels number value distance).Nodup := by
  refine List.nodup_cons.mpr
    ⟨?_, nodup_seekLabels number value distance⟩
  simp only [seekRows, List.map_map, List.mem_map, Function.comp_def,
    seekLabel, not_exists, not_and]
  intro step _
  split <;> simp

/-- The labels of a visit, without numbers. -/
def visitShapes : List (List (Option String)) :=
  [[some "carry", none, none], [some "act", none, none],
    [some "seek", none, none, none]]

theorem shape_visitLabels (number : Nat) (value : Bool) (distance : Nat) :
    ∀ label ∈ visitLabels number value distance,
      label.shape ∈ visitShapes := by
  simp only [visitLabels, List.forall_mem_cons, seekRows, List.map_map,
    List.forall_mem_map, Function.comp_def, seekLabel]
  refine ⟨by simp [Label.shape, visitShapes, bit], fun step _ => ?_⟩
  split <;> simp [Label.shape, visitShapes, bit]

/-- The labels of the states that read a scratch bit, without numbers. -/
def bitShapes : List (List (Option String)) :=
  [[], [some "bit", none], [some "return", none, none]]

theorem shape_bitRows (number : Nat) :
    ∀ label ∈ (bitRows number).map Prod.fst, label.shape ∈ bitShapes := by
  simp only [bitRows, bitLabel, List.map_cons, List.map_nil]
  split <;> simp [Label.shape, bitShapes, bit]

/-- The labels for one scratch bit, first those of the states that read it. -/
theorem map_fst_scratchBitRows (number distance : Nat) :
    (scratchBitRows number distance).map Prod.fst =
      (bitRows number).map Prod.fst ++
        (visitLabels number false distance ++
          visitLabels number true distance) := by
  simp [scratchBitRows, approachRows, visitLabels]

theorem nodup_scratchBitLabels (number distance : Nat) :
    ((scratchBitRows number distance).map Prod.fst).Nodup := by
  rw [map_fst_scratchBitRows, List.nodup_append', List.nodup_append']
  refine ⟨?_, ⟨nodup_visitLabels number false distance,
    nodup_visitLabels number true distance, ?_⟩, ?_⟩
  · simp only [bitRows, bitLabel, List.map_cons, List.map_nil]
    split <;> simp
  · intro label hfalse htrue
    have hvalue := (getD_visitLabels number false distance label hfalse).2
    have hvalue' := (getD_visitLabels number true distance label htrue).2
    exact absurd (hvalue.symm.trans hvalue') (by decide)
  · exact Label.disjoint_of_shape bitShapes visitShapes
      (shape_bitRows number)
      (List.forall_mem_append.mpr
        ⟨shape_visitLabels number false distance,
          shape_visitLabels number true distance⟩)
      (by decide)

/-- All labels of a walk are different. -/
theorem nodup_labels (layout : Layout) (distance : Nat → Nat) :
    ((rows layout distance).map Prod.fst).Nodup := by
  simp only [rows, List.map_append, List.map_flatMap]
  rw [List.nodup_append']
  refine ⟨Label.nodup_flatMap_range ?_ ?_, by simp, ?_⟩
  · intro number _
    exact nodup_scratchBitLabels number (distance number)
  · intro number
    rw [map_fst_scratchBitRows]
    simp only [List.forall_mem_append]
    refine ⟨?_, fun label hlabel =>
        (getD_visitLabels number false _ label hlabel).1,
      fun label hlabel => (getD_visitLabels number true _ label hlabel).1⟩
    simp only [bitRows, bitLabel, List.map_cons, List.map_nil]
    split
    · rename_i hzero
      subst hzero
      simp
    · simp
  · rw [List.disjoint_comm]
    refine Label.disjoint_of_shape [[some "rewind"]] (bitShapes ++ visitShapes)
      (by simp [Label.shape]) ?_ (by decide)
    rw [List.forall_mem_flatMap]
    intro number _
    rw [map_fst_scratchBitRows]
    simp only [List.forall_mem_append]
    exact ⟨fun label hlabel =>
        List.mem_append_left _ (shape_bitRows number label hlabel),
      fun label hlabel => List.mem_append_right _
        (shape_visitLabels number false _ label hlabel),
      fun label hlabel => List.mem_append_right _
        (shape_visitLabels number true _ label hlabel)⟩

/-! ## The rules are for the listed states -/

section Fits

variable (start done : String) (layout : Layout) (ns : Namespace)

open Outline

/-- The label of a bit that the word has belongs to the state that reads the
bit. -/
theorem locate_bit {number : Nat} (hnumber : number < layout.wordLength) :
    ns.locate start (bitLabel number) =
      bitState start layout ns number := by
  rw [bitLabel, bitState]
  split
  · rfl
  · rw [if_neg (by omega)]
    exact ns.locate_eq start (by simp [List.intercalate, toString])

theorem locate_return (number : Nat) (value : Bool) :
    ns.locate start [word "return", index number, bit value] =
      returnState ns number value :=
  ns.locate_eq start (by simp [List.intercalate, toString])

theorem locate_carry (number : Nat) (value : Bool) :
    ns.locate start [word "carry", index number, bit value] =
      carryState ns number value :=
  ns.locate_eq start (by simp [List.intercalate, toString])

theorem locate_seek (number : Nat) (value : Bool) (distance : Nat) :
    ns.locate start (seekLabel number value distance) =
      seekState ns (visit ns number value) distance := by
  rw [seekLabel, seekState]
  split
  · exact ns.locate_eq start (by simp [List.intercalate, toString])
  · exact ns.locate_eq start (by simp [List.intercalate, toString, visit])

theorem fits_bit {number : Nat} (hnumber : number < layout.wordLength) :
    (ns.outline start (bitRows number)).Fits
      (bitRules start layout ns number) := by
  have hstate : Fits
      [(bitState start layout ns number,
        (if number = 0 then [Symbol.blank] else []) ++ Symbol.bits ++
          [Symbol.seedStart])]
      ((if number = 0 then
          Phrase.pass (bitState start layout ns number) [Symbol.blank] .right
        else []) ++
        Phrase.mark (bitState start layout ns number) .right
          (carryState ns number) ++
        [⟨bitState start layout ns number, Symbol.seedStart,
          Symbol.seedStart, .left, ns.state "rewind"⟩]) := by
    split
    · exact Fits.single (by simp [Rule.key]) (by decide) (by decide)
    · exact Fits.single (by simp [Rule.key]) (by decide) (by decide)
  have hreturn (value : Bool) : Fits
      [(returnState ns number value,
        Symbol.bits ++ [Symbol.seedStart] ++ Symbol.marks)]
      (Phrase.findMark (returnState ns number value)
        (Symbol.bits ++ [Symbol.seedStart]) .left (.bit value) .right
        (bitState start layout ns (number + 1))) :=
    Fits.single (by simp) (by decide) (by decide)
  have hall := (hstate.append (hreturn false)).append (hreturn true)
  simp only [bitRows, Namespace.outline_cons, Namespace.outline_nil,
    locate_bit start layout ns hnumber, locate_return]
  exact hall

theorem fits_approach {number : Nat} (hnumber : number < layout.wordLength)
    (value : Bool) :
    (ns.outline start (approachRows number value)).Fits
      (approachRules start layout ns (visit ns number value)) := by
  have hcarry : Fits
      [(carryState ns number value, Symbol.bits ++ [Symbol.seedStart])]
      (carryRules ns (visit ns number value)) :=
    Fits.single (by simp [carryRules, visit, Rule.key]) (by decide)
      (by decide)
  have hbit := fits_bit start layout ns hnumber
  cases value
  · simp only [approachRows, Bool.false_eq_true, if_false,
      Namespace.outline_append, Namespace.outline_cons,
      Namespace.outline_nil, locate_carry]
    exact hbit.append hcarry
  · simp only [approachRows, if_true, List.nil_append,
      Namespace.outline_cons, Namespace.outline_nil, locate_carry]
    exact hcarry

/-- Stepping through the seed and reading the bit at the end. -/
theorem fits_seek (number : Nat) (value : Bool) (distance : Nat)
    {rules : List Rule}
    (hrules : rules.map Rule.key = Symbol.bits.map
      (Prod.mk (seekState ns (visit ns number value) distance))) :
    (ns.outline start (seekRows number value distance)).Fits
      (seekRules ns (visit ns number value) distance ++ rules) := by
  have hsteps : Fits
      ((List.range distance).flatMap fun step =>
        [(seekState ns (visit ns number value) step, Symbol.bits)])
      (seekRules ns (visit ns number value) distance) :=
    Fits.flatMap fun step _ =>
      Fits.single (by simp) (by decide) (by decide)
  have hread : Fits
      [(seekState ns (visit ns number value) distance, Symbol.bits)] rules :=
    Fits.single hrules (by decide) (by decide)
  have hall := hsteps.append hread
  rw [← List.map_eq_flatMap] at hall
  simp only [seekRows, Namespace.outline, List.range_succ, List.map_append,
    List.map_map, List.map_cons, List.map_nil, Function.comp_def,
    locate_seek]
  exact hall

theorem fits_home :
    (ns.outline start [([word "rewind"],
      Symbol.bits ++ [Symbol.seedStart] ++ [Symbol.blank])]).Fits
        (homeRules done ns) :=
  Fits.single (by simp [homeRules, Namespace.locate, Rule.key]) (by decide)
    (by decide)

end Fits

/-! ## The fragment of a walk -/

/-- The fragments of visits are added one after the other. -/
theorem foldlM_comprises {approach act : Visit → List Rule}
    {approachOutline actOutline : Visit → Outline} (visits : List Visit)
    (happroach : ∀ visit ∈ visits,
      (approachOutline visit).Fits (approach visit))
    (hact : ∀ visit ∈ visits, (actOutline visit).Fits (act visit))
    {fragment : Fragment} {outline : Outline} {rules : List Rule}
    (hrules : fragment.Comprises rules) (hfits : outline.Fits rules)
    (hnodup : (outline ++ visits.flatMap fun visit =>
      approachOutline visit ++ actOutline visit).states.Nodup) :
    ∃ walked, visits.foldlM (fun fragment visit =>
        (fragment.addAll (approach visit)).merge (.ofRules (act visit)))
          fragment = .ok walked ∧
      walked.Comprises (rules ++ visits.flatMap fun visit =>
        approach visit ++ act visit) := by
  induction visits generalizing fragment outline rules with
  | nil => exact ⟨fragment, rfl, by simpa using hrules⟩
  | cons visit visits ih =>
      rw [List.forall_mem_cons] at happroach hact
      have hfits' := hfits.append happroach.1
      rw [List.flatMap_cons, ← List.append_assoc,
        ← List.append_assoc] at hnodup
      have hfirst := hnodup
      rw [Outline.states_append, List.nodup_append', Outline.states_append,
        List.nodup_append'] at hfirst
      obtain ⟨⟨hleft, hright, hdisjoint⟩, -, -⟩ := hfirst
      obtain ⟨merged, hmerged, hrules'⟩ :=
        (hrules.addAll_of_fits hfits happroach.1 hleft).merge_of_fits
          (Fragment.comprises_ofRules hact.1 hright) hfits' hact.1 hdisjoint
      obtain ⟨walked, hwalked, hcomprises⟩ := ih happroach.2 hact.2 hrules'
        (hfits'.append hact.1) hnodup
      refine ⟨walked, ?_, by simpa using hcomprises⟩
      rw [List.foldlM_cons, hmerged]
      exact hwalked

end ScratchWalk

open ScratchWalk in
/-- If the rules of every visit step through the seed and read the bit at the
end, the fragment of the walk has exactly the rules of the walk. -/
theorem scratchWalk_comprises
    (start done : String) (layout : Layout) (ns : Namespace)
    (hstart : ¬ ns.Owns start) {visitRules : Visit → List Rule}
    {distance : Nat → Nat}
    (hvisit : ∀ number < layout.wordLength, ∀ value,
      (ns.outline start (seekRows number value (distance number))).Fits
        (visitRules (visit ns number value))) :
    (ns.outline start (rows layout distance)).Fits
        (walkRules start done layout ns visitRules) ∧
      ∃ fragment, scratchWalk start done layout ns
          (fun visit => .ofRules (visitRules visit)) = .ok fragment ∧
        fragment.Comprises
          (walkRules start done layout ns visitRules) := by
  have hnodup := Namespace.nodup_states_outline hstart
    (nodup_labels layout distance)
  have hmem : ∀ item ∈ visits layout ns,
      ∃ number < layout.wordLength, ∃ value,
        item = visit ns number value := by
    simp only [visits, List.forall_mem_flatMap, List.mem_range]
    intro number hnumber item hitem
    simp only [List.mem_cons, List.not_mem_nil, or_false] at hitem
    rcases hitem with rfl | rfl
    · exact ⟨number, hnumber, false, rfl⟩
    · exact ⟨number, hnumber, true, rfl⟩
  have happroach : ∀ item ∈ visits layout ns,
      (ns.outline start (approachRows item.index item.bit)).Fits
        (approachRules start layout ns item) := by
    intro item hitem
    obtain ⟨number, hnumber, value, rfl⟩ := hmem item hitem
    exact fits_approach start layout ns hnumber value
  have hact : ∀ item ∈ visits layout ns,
      (ns.outline start
        (seekRows item.index item.bit (distance item.index))).Fits
          (visitRules item) := by
    intro item hitem
    obtain ⟨number, hnumber, value, rfl⟩ := hmem item hitem
    exact hvisit number hnumber value
  have hrows : ns.outline start (rows layout distance) =
      ((visits layout ns).flatMap fun item =>
        ns.outline start (approachRows item.index item.bit) ++
          ns.outline start
            (seekRows item.index item.bit (distance item.index))) ++
        ns.outline start [([.word "rewind"],
          Symbol.bits ++ [Symbol.seedStart] ++ [Symbol.blank])] := by
    simp [rows, visits, scratchBitRows, List.flatMap_assoc, visit]
  have hvisits := Outline.Fits.flatMap fun item hitem =>
    (happroach item hitem).append (hact item hitem)
  have hhome := fits_home start done ns
  rw [hrows, Outline.states_append, List.nodup_append'] at hnodup
  obtain ⟨walked, hwalked, hrules⟩ := foldlM_comprises (visits layout ns)
    happroach hact Fragment.comprises_empty Outline.Fits.nil
    (by simpa using hnodup.1)
  rw [List.nil_append] at hrules
  refine ⟨hrows ▸ hvisits.append hhome,
    walked.addAll (homeRules done ns), ?_,
    hrules.addAll_of_fits hvisits hhome ?_⟩
  · simp [scratchWalk, hwalked, bind, Except.bind, pure, Except.pure]
  · rw [Outline.states_append]
    exact List.nodup_append'.mpr hnodup

end XorOrbit.Synthesis
