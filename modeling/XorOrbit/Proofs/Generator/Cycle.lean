import XorOrbit.Proofs.Generator
import XorOrbit.Proofs.Word.Invertible

/-!
# Where the sequence of seeds closes

If all three shifts move the bits, no two seeds have the same next one.  The
sequence then cannot run into the middle of itself, and the first seed that
occurs again is the initial one.  If one of the shifts does not move the bits,
every seed is followed by zero, where the sequence stays.
-/

namespace XorOrbit.Generator

/-- The three steps with signed offsets. -/
theorem advance_eq_xorShifted (generator : Generator) (word : Word) :
    generator.advance word =
      ((word.xorShifted generator.a).xorShifted
        (-generator.b)).xorShifted generator.c := by
  rw [advance, stepB, ← Word.shift_neg]
  rfl

variable {generator : Generator} {layout : Layout} {first second last : Nat}

/-! ## The first repeated seed -/

theorem seedAt_notMem_of_nodup
    (hnodup : (generator.seeds (last + 1)).Nodup) :
    generator.seedAt last ∉ generator.seeds last := by
  rw [seeds_succ, List.nodup_append'] at hnodup
  intro hmem
  exact hnodup.2.2 hmem (List.mem_singleton_self _)

/-- Two seeds cannot both be the first repeated one. -/
theorem FirstRepeat.le (hfirst : generator.FirstRepeat first)
    (hsecond : generator.FirstRepeat second) : second ≤ first := by
  by_contra hlt
  have hprefix := generator.seeds_prefix (Nat.lt_of_not_le hlt)
  exact seedAt_notMem_of_nodup (hsecond.nodup.sublist hprefix.sublist)
    hfirst.mem

theorem FirstRepeat.reference_eq (hlast : generator.FirstRepeat last)
    (hlayout : generator.validate = .ok layout) :
    generator.reference = .ok (generator.seeds (last + 1)) := by
  obtain ⟨other, hother, hreference⟩ := exists_reference_eq hlayout
  rwa [Nat.le_antisymm (hlast.le hother) (hother.le hlast)] at hreference

/-- If different seeds stay different, the seed before the repeated one shows
that nothing but the initial seed can occur again. -/
theorem FirstRepeat.seedAt_eq (hlast : generator.FirstRepeat last)
    (hlayout : generator.validate = .ok layout)
    (hinjective : Set.InjOn generator.advance
      {word | word.length = layout.wordLength}) :
    generator.seedAt last = .ofText generator.seed := by
  obtain ⟨previous, rfl⟩ := Nat.exists_eq_add_one.mpr hlast.pos
  obtain ⟨index, hindex, hseed⟩ := List.mem_iterate.mp hlast.mem
  change generator.seedAt (previous + 1) = generator.seedAt index at hseed
  cases index with
  | zero => exact hseed
  | succ index =>
      rw [seedAt_succ, seedAt_succ] at hseed
      have hequal : generator.seedAt index = generator.seedAt previous :=
        hinjective (length_seedAt hlayout index)
          (length_seedAt hlayout previous) hseed.symm
      have hmem : generator.seedAt index ∈ generator.seeds previous :=
        List.mem_iterate.mpr ⟨index, by omega, rfl⟩
      rw [hequal] at hmem
      exact absurd hmem (seedAt_notMem_of_nodup hlast.nodup)

/-! ## Shifts that move the bits -/

theorem bijOn_advance (ha : 0 < generator.a) (hb : 0 < generator.b)
    (hc : 0 < generator.c) (length : Nat) :
    Set.BijOn generator.advance {word | word.length = length}
      {word | word.length = length} := by
  have hstepA := Word.bijOn_xorShifted
    (show (generator.a : Int) ≠ 0 by omega) length
  have hstepB := Word.bijOn_xorShifted
    (show (-generator.b : Int) ≠ 0 by omega) length
  have hstepC := Word.bijOn_xorShifted
    (show (generator.c : Int) ≠ 0 by omega) length
  exact (hstepC.comp (hstepB.comp hstepA)).congr
    fun word _ => (advance_eq_xorShifted generator word).symm

/-! ## A shift that does not -/

theorem advance_of_zero
    (hzero : generator.a = 0 ∨ generator.b = 0 ∨ generator.c = 0)
    (word : Word) :
    generator.advance word = List.replicate word.length false := by
  rw [advance_eq_xorShifted]
  rcases hzero with ha | hb | hc
  · simp [ha, Word.xorShifted_zero, Word.xorShifted_replicate_false]
  · simp [hb, Word.xorShifted_zero, Word.xorShifted_replicate_false]
  · simp [hc, Word.xorShifted_zero]

section Zero

variable (hlayout : generator.validate = .ok layout)
  (hzero : generator.a = 0 ∨ generator.b = 0 ∨ generator.c = 0)
include hlayout hzero

/-- All seeds but the initial one are zero. -/
theorem seedAt_succ_of_zero (index : Nat) :
    generator.seedAt (index + 1) =
      List.replicate layout.wordLength false := by
  rw [seedAt_succ, advance_of_zero hzero, length_seedAt hlayout]

theorem seeds_two_of_zero :
    generator.seeds 2 = [Word.ofText generator.seed,
      List.replicate layout.wordLength false] := by
  rw [seeds_succ, seedAt_succ_of_zero hlayout hzero]
  rfl

/-- A seed of zeros occurs again at once. -/
theorem reference_of_zero_seed
    (hseed : Word.ofText generator.seed =
      List.replicate layout.wordLength false) :
    generator.reference = .ok [List.replicate layout.wordLength false,
      List.replicate layout.wordLength false] := by
  have hlast : generator.FirstRepeat 1 := by
    refine ⟨generator.nodup_seeds_one, ?_⟩
    rw [seedAt_succ_of_zero hlayout hzero, ← hseed]
    exact List.mem_singleton_self _
  rw [hlast.reference_eq hlayout, seeds_two_of_zero hlayout hzero, hseed]

/-- Any other seed is followed by zeros, of which the second is repeated. -/
theorem reference_of_nonzero_seed
    (hseed : Word.ofText generator.seed ≠
      List.replicate layout.wordLength false) :
    generator.reference = .ok [Word.ofText generator.seed,
      List.replicate layout.wordLength false,
      List.replicate layout.wordLength false] := by
  have hseeds := seeds_two_of_zero hlayout hzero
  have hlast : generator.FirstRepeat 2 := by
    constructor
    · rw [hseeds]
      simpa using hseed
    · rw [seedAt_succ_of_zero hlayout hzero, hseeds]
      exact List.mem_cons_of_mem _ (List.mem_singleton_self _)
  rw [hlast.reference_eq hlayout, seeds_succ, hseeds,
    seedAt_succ_of_zero hlayout hzero]
  rfl

end Zero

/-- If all shifts move the bits, one round permutes the words of one length and
the sequence of seeds closes at the initial one.  Otherwise it ends in
zeros. -/
theorem reference_closes (generator : Generator)
    (hword : generator.HasWord) :
    ∃ layout words, generator.validate = .ok layout ∧
      layout.wordLength = generator.wordLength ∧
      generator.reference = .ok words ∧
      (0 < generator.a → 0 < generator.b → 0 < generator.c →
        Set.BijOn (generator.next layout)
          {word | word.length = generator.wordLength}
          {word | word.length = generator.wordLength} ∧
        words.getLast?.map Word.text = some generator.seed) ∧
      (generator.a = 0 ∨ generator.b = 0 ∨ generator.c = 0 →
        let zeros := List.replicate generator.wordLength false
        (Word.ofText generator.seed = zeros → words = [zeros, zeros]) ∧
        (Word.ofText generator.seed ≠ zeros →
          words = [Word.ofText generator.seed, zeros, zeros])) := by
  obtain ⟨layout, hlayout, hlength⟩ := hword.exists_layout
  obtain ⟨last, hlast, hreference⟩ := exists_reference_eq hlayout
  refine ⟨layout, _, hlayout, hlength, hreference, ?_, ?_⟩
  · intro ha hb hc
    have hbij := bijOn_advance ha hb hc layout.wordLength
    rw [← hlength]
    constructor
    · exact hbij.congr fun word hlength => (next_eq hlength).symm
    · rw [seeds_succ, List.getLast?_concat,
        hlast.seedAt_eq hlayout hbij.injOn, Option.map_some,
        text_ofText_seed hlayout]
  · intro hzero zeros
    have hzeros : List.replicate layout.wordLength false = zeros := by
      rw [hlength]
    constructor
    · intro hseed
      have hother := reference_of_zero_seed hlayout hzero
        (hseed.trans hzeros.symm)
      rw [hzeros] at hother
      exact Except.ok.inj (hreference.symm.trans hother)
    · intro hseed
      have hother := reference_of_nonzero_seed hlayout hzero
        (hzeros ▸ hseed)
      rw [hzeros] at hother
      exact Except.ok.inj (hreference.symm.trans hother)

theorem reference_closes_six_bits :
    let moving := new "110010" 1 2 1
    let clearing := new "110010" 1 0 1
    (moving.HasWord ∧ ∃ words, moving.reference = .ok words ∧
      words.getLast?.map Word.text = some "110010") ∧
    clearing.HasWord ∧
      clearing.reference = .ok
        [[true, true, false, false, true, false],
          List.replicate 6 false, List.replicate 6 false] := by
  intro moving clearing
  have hmoving : moving.HasWord := by decide
  have hclearing : clearing.HasWord := by decide
  obtain ⟨_, words, -, -, hwords, hcloses, -⟩ := reference_closes _ hmoving
  obtain ⟨_, others, -, -, hothers, -, hclears⟩ :=
    reference_closes _ hclearing
  refine ⟨⟨hmoving, words, hwords, ?_⟩, hclearing, ?_⟩
  · exact (hcloses (by decide) (by decide) (by decide)).2
  · rw [hothers, (hclears (by decide)).2 (by decide)]
    decide

end XorOrbit.Generator
