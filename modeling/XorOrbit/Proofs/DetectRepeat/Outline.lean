import XorOrbit.Proofs.DetectRepeat.Trace
import XorOrbit.Proofs.Fragment.Comprises

/-!
# The states of the detection

The labels of the states that the detection defines, each with the symbols
that it reads.  No label is listed twice, for words of any length.
-/

namespace XorOrbit.Synthesis

namespace DetectRepeat

open XorOrbit.Part

/-- The states that copy one seed bit to the log. -/
def appendBitRows (number : Nat) : List (Label × List Char) :=
  [([word "append", index number], Symbol.bits),
    ([word "append", index number, word "carry", bit false],
      crossing ++ [Symbol.blank]),
    ([word "append", index number, word "carry", bit true],
      crossing ++ [Symbol.blank]),
    ([word "append", index number, word "back"],
      crossing ++ Symbol.marks)]

/-- The states that copy the seed to the log and go back to its start. -/
def appendRows (layout : Layout) : List (Label × List Char) :=
  (List.range layout.wordLength).flatMap appendBitRows ++
    [([word "seal"], crossing ++ [Symbol.blank]),
      ([word "rewind"],
        Symbol.bits ++ [Symbol.entryEnd] ++ [Symbol.seedEnd])]

/-- The states that look up a seed bit. -/
def probeSeedRows (number : Nat) (value : Bool) :
    List (Label × List Char) :=
  [([word "probe", index number, word "seek", bit value],
      homeward ++ [Symbol.seedStart])] ++
    (List.range number).map (fun step =>
      ([word "probe", index number, word "seed", bit value, index step],
        Symbol.bits)) ++
    [([word "probe", index number, word "seed", bit value, index number],
      [Symbol.ofBit value, Symbol.ofBit !value])]

/-- The states that compare one bit of an entry with the seed. -/
def probeRows (number : Nat) : List (Label × List Char) :=
  [([word "probe", index number], Symbol.bits)] ++
    probeSeedRows number false ++ probeSeedRows number true ++
    [([word "probe", index number, word "match"],
      crossing ++ Symbol.marks)]

/-- The states that compare the entries with the seed. -/
def compareRows (layout : Layout) : List (Label × List Char) :=
  (List.range layout.wordLength).flatMap probeRows ++
    [([word "back", word "miss"], crossing ++ Symbol.marks),
      ([word "skip"], Symbol.bits ++ [Symbol.entryEnd])]

/-- The states that close the log and go home. -/
def verdictRows : List (Label × List Char) :=
  [([word "verdict"], [Symbol.entryEnd, Symbol.openEntryEnd]),
    ([word "seal", word "found"],
      Symbol.bits ++ [Symbol.entryEnd] ++ [Symbol.openEntryEnd]),
    ([word "home", word "continue"], homeward ++ [Symbol.seedStart]),
    ([word "home", word "found"], homeward ++ [Symbol.seedStart])]

/-- All states of the detection; the first is the one it starts in. -/
def rows (layout : Layout) : List (Label × List Char) :=
  [([], Symbol.blank :: Symbol.bits ++ [Symbol.seedStart])] ++
    appendRows layout ++ compareRows layout ++ verdictRows

/-! ## No label is listed twice -/

/-- The labels of the states that copy the seed, without numbers. -/
def appendShapes : List (List (Option String)) :=
  [[some "append", none], [some "append", none, some "carry", none],
    [some "append", none, some "back"]]

/-- The labels of the states that compare bits, without numbers. -/
def probeShapes : List (List (Option String)) :=
  [[some "probe", none], [some "probe", none, some "seek", none],
    [some "probe", none, some "seed", none, none],
    [some "probe", none, some "match"]]

theorem shape_appendBitRows (number : Nat) :
    ∀ label ∈ (appendBitRows number).map Prod.fst,
      label.shape ∈ appendShapes := by
  simp [appendBitRows, appendShapes, Label.shape, bit]

theorem shape_probeRows (number : Nat) :
    ∀ label ∈ (probeRows number).map Prod.fst,
      label.shape ∈ probeShapes := by
  simp only [probeRows, probeSeedRows, List.map_append, List.map_map,
    List.forall_mem_append, List.forall_mem_map]
  simp [probeShapes, Label.shape, bit]

theorem nodup_appendLabels (layout : Layout) :
    ((appendRows layout).map Prod.fst).Nodup := by
  simp only [appendRows, List.map_append, List.map_flatMap]
  rw [List.nodup_append']
  refine ⟨Label.nodup_flatMap_range ?_ ?_, by simp, ?_⟩
  · intro number _
    simp [appendBitRows]
  · intro number
    simp [appendBitRows]
  · refine Label.disjoint_of_shape appendShapes
      [[some "seal"], [some "rewind"]] ?_ (by simp [Label.shape]) (by decide)
    exact List.forall_mem_flatMap.mpr fun number _ =>
      shape_appendBitRows number

theorem nodup_probeSeedLabels (number : Nat) (value : Bool) :
    ((probeSeedRows number value).map Prod.fst).Nodup := by
  have hsteps : ((List.range number).map fun step =>
      ([word "probe", index number, word "seed", bit value,
        index step] : Label)).Nodup := by
    refine List.Nodup.map ?_ List.nodup_range
    intro first second heq
    simpa using heq
  simpa [probeSeedRows, List.nodup_append', List.disjoint_left,
    Function.comp_def] using hsteps

/-- The fourth piece of a label tells which value the entry's bit has. -/
theorem getD_probeSeedRows (number : Nat) (value : Bool) :
    ∀ label ∈ (probeSeedRows number value).map Prod.fst,
      label.getD 3 (bit false) = bit value := by
  simp only [probeSeedRows, List.map_append, List.map_map,
    List.forall_mem_append, List.forall_mem_map]
  simp

theorem nodup_probeLabels (number : Nat) :
    ((probeRows number).map Prod.fst).Nodup := by
  have hfalse := nodup_probeSeedLabels number false
  have htrue := nodup_probeSeedLabels number true
  simp only [probeRows, List.map_append, List.nodup_append']
  refine ⟨⟨⟨by simp, hfalse, by simp [probeSeedRows]⟩, htrue, ?_⟩, by simp,
    by simp [probeSeedRows]⟩
  intro label hleft hright
  have hleft' : label.getD 3 (bit false) = bit false := by
    rcases List.mem_append.mp hleft with hfirst | hseed
    · obtain rfl : label = [word "probe", index number] := by
        simpa using hfirst
      rfl
    · exact getD_probeSeedRows number false label hseed
  have hright' := getD_probeSeedRows number true label hright
  rw [hleft'] at hright'
  exact absurd hright' (by decide)

theorem nodup_compareLabels (layout : Layout) :
    ((compareRows layout).map Prod.fst).Nodup := by
  simp only [compareRows, List.map_append, List.map_flatMap]
  rw [List.nodup_append']
  refine ⟨Label.nodup_flatMap_range ?_ ?_, by simp, ?_⟩
  · intro number _
    exact nodup_probeLabels number
  · intro number
    simp only [probeRows, probeSeedRows, List.map_append, List.map_map,
      List.forall_mem_append, List.forall_mem_map]
    simp
  · refine Label.disjoint_of_shape probeShapes
      [[some "back", some "miss"], [some "skip"]] ?_ (by simp [Label.shape])
      (by decide)
    exact List.forall_mem_flatMap.mpr fun number _ => shape_probeRows number

/-- All labels of the detection are different. -/
theorem nodup_labels (layout : Layout) :
    ((rows layout).map Prod.fst).Nodup := by
  have happend : ∀ label ∈ (appendRows layout).map Prod.fst,
      label.shape ∈ appendShapes ++ [[some "seal"], [some "rewind"]] := by
    simp only [appendRows, List.map_append, List.map_flatMap,
      List.forall_mem_append, List.forall_mem_flatMap]
    refine ⟨fun number _ label hlabel => ?_, by simp [Label.shape]⟩
    exact List.mem_append_left _ (shape_appendBitRows number label hlabel)
  have hcompare : ∀ label ∈ (compareRows layout).map Prod.fst,
      label.shape ∈
        probeShapes ++ [[some "back", some "miss"], [some "skip"]] := by
    simp only [compareRows, List.map_append, List.map_flatMap,
      List.forall_mem_append, List.forall_mem_flatMap]
    refine ⟨fun number _ label hlabel => ?_, by simp [Label.shape]⟩
    exact List.mem_append_left _ (shape_probeRows number label hlabel)
  have hverdict : ∀ label ∈ verdictRows.map Prod.fst,
      label.shape ∈ [[some "verdict"], [some "seal", some "found"],
        [some "home", some "continue"], [some "home", some "found"]] := by
    simp [verdictRows, Label.shape]
  have hstart : ∀ label ∈ ([[]] : List Label), label.shape ∈ [[]] := by
    simp [Label.shape]
  simp only [rows, List.map_append, List.nodup_append',
    List.disjoint_append_left]
  refine ⟨⟨⟨by simp, nodup_appendLabels layout, ?_⟩,
    nodup_compareLabels layout, ?_, ?_⟩, by decide, ⟨?_, ?_⟩, ?_⟩
  · exact Label.disjoint_of_shape _ _ hstart happend (by decide)
  · exact Label.disjoint_of_shape _ _ hstart hcompare (by decide)
  · exact Label.disjoint_of_shape _ _ happend hcompare (by decide)
  · exact Label.disjoint_of_shape _ _ hstart hverdict (by decide)
  · exact Label.disjoint_of_shape _ _ happend hverdict (by decide)
  · exact Label.disjoint_of_shape _ _ hcompare hverdict (by decide)

/-! ## The rules are for the listed states -/

section Fits

variable (start fresh repeated : String) (layout : Layout) (ns : Namespace)

theorem locate_append (number : Nat) :
    ns.locate start [word "append", index number] =
      ns.state s!"append_{number}" :=
  ns.locate_eq start (by simp [List.intercalate, toString])

theorem locate_appendCarry (number : Nat) (value : Bool) :
    ns.locate start [word "append", index number, word "carry", bit value] =
      appendCarryState ns number value :=
  ns.locate_eq start (by simp [List.intercalate, toString])

theorem locate_appendBack (number : Nat) :
    ns.locate start [word "append", index number, word "back"] =
      appendBackState ns number :=
  ns.locate_eq start (by simp [List.intercalate, toString])

theorem locate_probe (number : Nat) :
    ns.locate start [word "probe", index number] =
      ns.state s!"probe_{number}" :=
  ns.locate_eq start (by simp [List.intercalate, toString])

theorem locate_probeSeek (number : Nat) (value : Bool) :
    ns.locate start [word "probe", index number, word "seek", bit value] =
      probeSeekState ns number value :=
  ns.locate_eq start (by simp [List.intercalate, toString])

theorem locate_probeStanding (number : Nat) (value : Bool) (step : Nat) :
    ns.locate start
        [word "probe", index number, word "seed", bit value, index step] =
      probeStandingState ns number value step :=
  ns.locate_eq start (by simp [List.intercalate, toString])

theorem locate_probeMatch (number : Nat) :
    ns.locate start [word "probe", index number, word "match"] =
      probeMatchState ns number :=
  ns.locate_eq start (by simp [List.intercalate, toString])

open Outline

theorem fits_enter :
    (ns.outline start
      [([], Symbol.blank :: Symbol.bits ++ [Symbol.seedStart])]).Fits
      (enterRules start ns) :=
  Fits.single (by simp [enterRules, Namespace.locate, Rule.key])
    (by decide) (by decide)

theorem fits_appendBit (number : Nat) :
    (ns.outline start (appendBitRows number)).Fits
      (appendBitRules layout ns number) := by
  simp only [appendBitRows, Namespace.outline_cons, locate_append,
    locate_appendCarry, locate_appendBack, Namespace.outline_nil]
  have hmark : Fits [(ns.state s!"append_{number}", Symbol.bits)]
      (Phrase.mark (ns.state s!"append_{number}") .right
        (appendCarryState ns number)) :=
    Fits.single (by simp) (by decide) (by decide)
  have hdrop (value : Bool) : Fits
      [(appendCarryState ns number value, crossing ++ [Symbol.blank])]
      (Phrase.pass (appendCarryState ns number value) crossing .right ++
        [⟨appendCarryState ns number value, Symbol.blank,
          Symbol.ofBit value, .left, appendBackState ns number⟩]) :=
    Fits.single (by simp [Rule.key]) (by decide) (by decide)
  have hback : Fits
      [(appendBackState ns number, crossing ++ Symbol.marks)]
      (Phrase.findMark (appendBackState ns number) crossing .left .kept
        .right (appendState layout ns (number + 1))) :=
    Fits.single (by simp) (by decide) (by decide)
  exact ((hmark.append (hdrop false)).append (hdrop true)).append hback

theorem fits_append :
    (ns.outline start (appendRows layout)).Fits (appendRules layout ns) := by
  have hseal : Fits [(ns.state "seal", crossing ++ [Symbol.blank])]
      (Phrase.pass (ns.state "seal") crossing .right ++
        [⟨ns.state "seal", Symbol.blank, Symbol.openEntryEnd, .left,
          ns.state "rewind"⟩]) :=
    Fits.single (by simp [Rule.key]) (by decide) (by decide)
  have hrewind : Fits
      [(ns.state "rewind",
        Symbol.bits ++ [Symbol.entryEnd] ++ [Symbol.seedEnd])]
      (Phrase.travel (ns.state "rewind") (Symbol.bits ++ [Symbol.entryEnd])
        .left Symbol.seedEnd .right (ns.state "probe_0")) :=
    Fits.single (by simp) (by decide) (by decide)
  have hbits : Fits
      ((List.range layout.wordLength).flatMap fun number =>
        ns.outline start (appendBitRows number))
      ((List.range layout.wordLength).flatMap (appendBitRules layout ns)) :=
    Fits.flatMap fun number _ => fits_appendBit start layout ns number
  have hall := (hbits.append hseal).append hrewind
  simpa [appendRules, appendRows, Namespace.locate] using hall

theorem fits_probeSeed (number : Nat) (value : Bool) :
    (ns.outline start (probeSeedRows number value)).Fits
      (probeSeedRules ns number value) := by
  have hseek : Fits
      [(probeSeekState ns number value, homeward ++ [Symbol.seedStart])]
      (Phrase.travel (probeSeekState ns number value) homeward .left
        Symbol.seedStart .right (probeStandingState ns number value 0)) :=
    Fits.single (by simp) (by decide) (by decide)
  have hsteps : Fits
      ((List.range number).flatMap fun step =>
        [(probeStandingState ns number value step, Symbol.bits)])
      ((List.range number).flatMap fun step =>
        Phrase.cross (probeStandingState ns number value step) Symbol.bits
          .right (probeStandingState ns number value (step + 1))) :=
    Fits.flatMap fun step _ =>
      Fits.single (by simp) (by decide) (by decide)
  have hread : Fits
      [(probeStandingState ns number value number,
        [Symbol.ofBit value, Symbol.ofBit !value])]
      [⟨probeStandingState ns number value number, Symbol.ofBit value,
          Symbol.ofBit value, .right, ns.state s!"probe_{number}_match"⟩,
        ⟨probeStandingState ns number value number, Symbol.ofBit !value,
          Symbol.ofBit !value, .right, ns.state "back_miss"⟩] :=
    Fits.single (by simp [Rule.key]) (by cases value <;> decide) (by simp)
  have hall := (hseek.append hsteps).append hread
  simp only [probeSeedRows, Namespace.outline, List.map_append, List.map_map,
    List.map_cons, List.map_nil, Function.comp_def, locate_probeSeek,
    locate_probeStanding]
  rw [← List.map_eq_flatMap] at hall
  exact hall

theorem fits_probe (number : Nat) :
    (ns.outline start (probeRows number)).Fits
      (probeRules layout ns number) := by
  have hmark : Fits [(ns.state s!"probe_{number}", Symbol.bits)]
      (Phrase.mark (ns.state s!"probe_{number}") .left
        (probeSeekState ns number)) :=
    Fits.single (by simp) (by decide) (by decide)
  have hback : Fits
      [(probeMatchState ns number, crossing ++ Symbol.marks)]
      (Phrase.findMark (probeMatchState ns number) crossing .right .kept
        .right (probeState layout ns (number + 1))) :=
    Fits.single (by simp) (by decide) (by decide)
  have hall := ((hmark.append (fits_probeSeed start ns number false)).append
    (fits_probeSeed start ns number true)).append hback
  simp only [probeRows, Namespace.outline_append, Namespace.outline_cons,
    Namespace.outline_nil, locate_probe, locate_probeMatch]
  exact hall

theorem fits_compare :
    (ns.outline start (compareRows layout)).Fits
      (compareRules layout ns) := by
  have hbits : Fits
      ((List.range layout.wordLength).flatMap fun number =>
        ns.outline start (probeRows number))
      ((List.range layout.wordLength).flatMap (probeRules layout ns)) :=
    Fits.flatMap fun number _ => fits_probe start layout ns number
  have hmiss : Fits [(ns.state "back_miss", crossing ++ Symbol.marks)]
      (Phrase.findMark (ns.state "back_miss") crossing .right .kept .right
        (ns.state "skip")) :=
    Fits.single (by simp) (by decide) (by decide)
  have hskip : Fits
      [(ns.state "skip", Symbol.bits ++ [Symbol.entryEnd])]
      (Phrase.travel (ns.state "skip") Symbol.bits .right Symbol.entryEnd
        .right (ns.state "probe_0")) :=
    Fits.single (by simp) (by decide) (by decide)
  have hall := (hbits.append hmiss).append hskip
  simpa [compareRules, compareRows, Namespace.locate] using hall

theorem fits_verdict :
    (ns.outline start verdictRows).Fits
      (verdictRules fresh repeated ns) := by
  have hverdict : Fits
      [(ns.state "verdict", [Symbol.entryEnd, Symbol.openEntryEnd])]
      [⟨ns.state "verdict", Symbol.entryEnd, Symbol.entryEnd, .right,
          ns.state "seal_found"⟩,
        ⟨ns.state "verdict", Symbol.openEntryEnd, Symbol.entryEnd, .left,
          ns.state "home_continue"⟩] :=
    Fits.single rfl (by decide) (by decide)
  have hseal : Fits
      [(ns.state "seal_found",
        Symbol.bits ++ [Symbol.entryEnd] ++ [Symbol.openEntryEnd])]
      (Phrase.pass (ns.state "seal_found")
          (Symbol.bits ++ [Symbol.entryEnd]) .right ++
        [⟨ns.state "seal_found", Symbol.openEntryEnd, Symbol.entryEnd,
          .left, ns.state "home_found"⟩]) :=
    Fits.single (by simp [Rule.key]) (by decide) (by decide)
  have hhome (state next : String) : Fits
      [(state, homeward ++ [Symbol.seedStart])]
      (Phrase.travel state homeward .left Symbol.seedStart .stay next) :=
    Fits.single (by simp) (by decide) (by decide)
  have hall := ((hverdict.append hseal).append
    (hhome (ns.state "home_continue") fresh)).append
      (hhome (ns.state "home_found") repeated)
  simpa [verdictRules, verdictRows, Namespace.locate] using hall

/-- The rules of the detection are for the states listed in `rows`. -/
theorem fits_detectRepeat :
    (ns.outline start (rows layout)).Fits
      (detectRepeatRules start fresh repeated layout ns) := by
  have hall := (((fits_enter start ns).append
    (fits_append start layout ns)).append
      (fits_compare start layout ns)).append
        (fits_verdict start fresh repeated ns)
  simpa only [rows, detectRepeatRules, Namespace.outline_append] using hall

end Fits

end DetectRepeat

open DetectRepeat in
/-- The fragments of the detection can be merged, and the result has exactly
the rules of the detection. -/
theorem detectRepeat_comprises
    (start fresh repeated : String) (layout : Layout) (ns : Namespace)
    (hstart : ¬ ns.Owns start) :
    ∃ fragment, detectRepeat start fresh repeated layout ns = .ok fragment ∧
      fragment.Comprises
        (detectRepeatRules start fresh repeated layout ns) := by
  have henter := fits_enter start ns
  have happend := fits_append start layout ns
  have hcompare := fits_compare start layout ns
  have hverdict := fits_verdict start fresh repeated ns
  have hnodup := Namespace.nodup_states_outline hstart (nodup_labels layout)
  simp only [rows, Namespace.outline_append, Outline.states_append,
    List.nodup_append', List.disjoint_append_left] at hnodup
  obtain ⟨⟨⟨henterNodup, happendNodup, hea⟩, hcompareNodup, hec, hac⟩,
    hverdictNodup, ⟨hev, hav⟩, hcv⟩ := hnodup
  obtain ⟨appended, happended, hrules⟩ :=
    (Fragment.comprises_ofRules henter henterNodup).merge_of_fits
      (Fragment.comprises_ofRules happend happendNodup) henter happend hea
  obtain ⟨compared, hcompared, hrules⟩ := hrules.merge_of_fits
    (Fragment.comprises_ofRules hcompare hcompareNodup)
    (henter.append happend) hcompare (by
      rw [Outline.states_append, List.disjoint_append_left]
      exact ⟨hec, hac⟩)
  obtain ⟨detected, hdetected, hrules⟩ := hrules.merge_of_fits
    (Fragment.comprises_ofRules hverdict hverdictNodup)
    ((henter.append happend).append hcompare) hverdict (by
      simp only [Outline.states_append, List.disjoint_append_left]
      exact ⟨⟨hev, hav⟩, hcv⟩)
  refine ⟨detected, ?_, hrules⟩
  simp [detectRepeat, happended, hcompared, hdetected, bind, Except.bind]

end XorOrbit.Synthesis
