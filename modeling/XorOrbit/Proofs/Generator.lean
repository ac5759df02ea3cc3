import XorOrbit.Generator
import XorOrbit.Proofs.Word.Orbit

/-!
# The seeds of a generator

Which generators are valid, and which seeds they run through.  Offsets are
clamped to the word length, but the seeds are the ones that the shifts as they
are given lead to.
-/

namespace XorOrbit

/-! ## Validation -/

namespace Generator

/-- The seed is written with `0` and `1` and has at least one of them. -/
def HasWord (generator : Generator) : Prop :=
  generator.seed ≠ "" ∧
    ∀ symbol ∈ generator.seed.toList, symbol ∈ Symbol.bits

instance (generator : Generator) : Decidable generator.HasWord :=
  decidable_of_iff (generator.seed ≠ "" ∧
    generator.seed.toList.all (· ∈ Symbol.bits) = true) (by simp [HasWord])

variable {generator : Generator} {layout : Layout}

theorem validate_eq_ok_iff :
    generator.validate = .ok layout ↔
      generator.HasWord ∧ layout.wordLength = generator.wordLength := by
  rw [validate, HasWord]
  by_cases hempty : generator.seed = ""
  · simp [hempty]
  · have hpos : 0 < generator.wordLength := by
      rw [wordLength, Nat.pos_iff_ne_zero]
      simpa using hempty
    cases hfind : generator.seed.toList.find? (· ∉ Symbol.bits) with
    | some found =>
        have hmem := List.mem_of_find?_eq_some hfind
        have hstray := List.find?_some hfind
        simp only [decide_eq_true_eq] at hstray
        have hbits : ¬ ∀ symbol ∈ generator.seed.toList,
            symbol ∈ Symbol.bits :=
          fun hall => hstray (hall found hmem)
        simp [hempty, hbits]
    | none =>
        have hbits : ∀ symbol ∈ generator.seed.toList,
            symbol ∈ Symbol.bits := by
          simpa using hfind
        have hlayout : Layout.ofLength generator.wordLength = .ok layout ↔
            layout.wordLength = generator.wordLength := by
          rw [Layout.ofLength, dif_pos hpos, Except.ok.injEq]
          constructor
          · rintro rfl
            rfl
          · intro hlength
            cases layout
            simpa using hlength.symm
        simpa [hempty, hlayout] using fun _ => hbits

theorem HasWord.exists_layout (hword : generator.HasWord) :
    ∃ layout : Layout, generator.validate = .ok layout ∧
      layout.wordLength = generator.wordLength := by
  have hpos : 0 < generator.wordLength := by
    rw [wordLength, Nat.pos_iff_ne_zero]
    simpa using hword.1
  exact ⟨⟨_, hpos⟩, validate_eq_ok_iff.mpr ⟨hword, rfl⟩, rfl⟩

/-- A seed that is not a word is reported as such. -/
theorem validate_error {error : Error}
    (herror : generator.validate = .error error) :
    ∃ fault, error = .invalidGenerator fault := by
  rw [validate] at herror
  split at herror
  · exact ⟨_, (Except.error.inj herror).symm⟩
  · split at herror
    · exact ⟨_, (Except.error.inj herror).symm⟩
    · rw [Layout.ofLength] at herror
      split at herror
      · simp at herror
      · exact ⟨_, (Except.error.inj herror).symm⟩

/-- The seed of a valid generator fills the seed region. -/
theorem length_ofText_seed (hlayout : generator.validate = .ok layout) :
    (Word.ofText generator.seed).length = layout.wordLength := by
  rw [(validate_eq_ok_iff.mp hlayout).2, wordLength, Word.ofText,
    List.length_map, String.length_toList]

/-- A valid seed is the text of its word. -/
theorem cells_ofText_seed (hlayout : generator.validate = .ok layout) :
    (Word.ofText generator.seed).cells = generator.seed.toList := by
  have hword := (validate_eq_ok_iff.mp hlayout).1.2
  have hread : ∀ symbol ∈ generator.seed.toList,
      Symbol.ofBit (symbol == Symbol.ofBit true) = symbol := by
    intro symbol hsymbol
    have hbit := hword symbol hsymbol
    simp only [Symbol.bits, List.mem_cons, List.not_mem_nil, or_false]
      at hbit
    rcases hbit with rfl | rfl
    · decide
    · decide
  rw [Word.ofText, Word.cells, List.map_map]
  exact (List.map_congr_left hread).trans (List.map_id _)

theorem text_ofText_seed (hlayout : generator.validate = .ok layout) :
    (Word.ofText generator.seed).text = generator.seed := by
  rw [Word.text, cells_ofText_seed hlayout, String.ofList_toList]

/-! ## Offsets -/

/-- The offsets for any word that fits into memory are the same in 64 bits. -/
theorem toInt_offsets64 (generator : Generator) (layout : Layout)
    (hlayout : layout.wordLength < 2 ^ 63) :
    let (a, b, c) := generator.offsets64 layout
    (a.toInt, b.toInt, c.toInt) = generator.offsets layout := by
  have hfits : ∀ amount : Nat, min amount layout.wordLength < 2 ^ 63 :=
    fun amount => Nat.lt_of_le_of_lt (Nat.min_le_right ..) hlayout
  have ha := hfits generator.a
  have hb := hfits generator.b
  have hc := hfits generator.c
  simp only [offsets64, offsets]
  rw [Int64.toInt_ofInt_of_le (by omega) (by omega),
    Int64.toInt_ofInt_of_le (by omega) (by omega),
    Int64.toInt_ofInt_of_le (by omega) (by omega)]

/-! ## The sequence of seeds -/

section Sequence

variable (generator : Generator)

/-- The first step, with the shift to the left as it is given. -/
def stepA (word : Word) : Word := word.xor (word.shiftLeft generator.a)

/-- The second step, with the shift to the right as it is given. -/
def stepB (word : Word) : Word := word.xor (word.shiftRight generator.b)

/-- The third step, with the shift to the left as it is given. -/
def stepC (word : Word) : Word := word.xor (word.shiftLeft generator.c)

/-- The three steps after each other. -/
def advance (word : Word) : Word :=
  generator.stepC (generator.stepB (generator.stepA word))

/-- The seed with the given index, starting with the initial one. -/
def seedAt (index : Nat) : Word :=
  generator.advance^[index] (.ofText generator.seed)

/-- The first seeds. -/
def seeds (count : Nat) : List Word :=
  List.iterate generator.advance (.ofText generator.seed) count

theorem seedAt_succ (index : Nat) :
    generator.seedAt (index + 1) =
      generator.advance (generator.seedAt index) :=
  Function.iterate_succ_apply' ..

theorem seeds_succ (count : Nat) :
    generator.seeds (count + 1) =
      generator.seeds count ++ [generator.seedAt count] :=
  Word.iterate_succ_eq_append count

theorem nodup_seeds_one : (generator.seeds 1).Nodup :=
  List.nodup_singleton _

@[simp] theorem length_seeds (count : Nat) :
    (generator.seeds count).length = count :=
  List.length_iterate ..

theorem seeds_prefix {first second : Nat} (hle : first ≤ second) :
    generator.seeds first <+: generator.seeds second := by
  obtain ⟨more, rfl⟩ := Nat.exists_eq_add_of_le hle
  rw [seeds, seeds, List.iterate_add]
  exact List.prefix_append _ _

end Sequence

section Clamped

variable {word : Word}

theorem xorShifted_fst_offsets (hlength : word.length = layout.wordLength) :
    word.xorShifted (generator.offsets layout).1 = generator.stepA word := by
  simp only [offsets, ← hlength, Word.xorShifted, stepA]
  rw [← word.shiftLeft_min generator.a]
  rfl

theorem xorShifted_snd_offsets (hlength : word.length = layout.wordLength) :
    word.xorShifted (generator.offsets layout).2.1 =
      generator.stepB word := by
  simp only [offsets, ← hlength, Word.xorShifted, stepB]
  rw [← word.shiftRight_min generator.b, Word.shift_neg]

theorem xorShifted_trd_offsets (hlength : word.length = layout.wordLength) :
    word.xorShifted (generator.offsets layout).2.2 =
      generator.stepC word := by
  simp only [offsets, ← hlength, Word.xorShifted, stepC]
  rw [← word.shiftLeft_min generator.c]
  rfl

@[simp] theorem length_stepA (generator : Generator) (word : Word) :
    (generator.stepA word).length = word.length := by
  simp [stepA, Word.xor]

@[simp] theorem length_stepB (generator : Generator) (word : Word) :
    (generator.stepB word).length = word.length := by
  simp [stepB, Word.xor]

@[simp] theorem length_stepC (generator : Generator) (word : Word) :
    (generator.stepC word).length = word.length := by
  simp [stepC, Word.xor]

@[simp] theorem length_advance (generator : Generator) (word : Word) :
    (generator.advance word).length = word.length := by
  simp [advance]

theorem next_eq (hlength : word.length = layout.wordLength) :
    generator.next layout word = generator.advance word := by
  have hnext : generator.next layout word =
      ((word.xorShifted (generator.offsets layout).1).xorShifted
        (generator.offsets layout).2.1).xorShifted
          (generator.offsets layout).2.2 := rfl
  rw [hnext, xorShifted_fst_offsets hlength,
    xorShifted_snd_offsets (by simpa using hlength),
    xorShifted_trd_offsets (by simpa using hlength), advance]

end Clamped

theorem length_seedAt (hlayout : generator.validate = .ok layout)
    (index : Nat) :
    (generator.seedAt index).length = layout.wordLength := by
  induction index with
  | zero => exact length_ofText_seed hlayout
  | succ index ih => rw [seedAt_succ, length_advance, ih]

theorem length_of_mem_seeds (hlayout : generator.validate = .ok layout)
    {count : Nat} {word : Word} (hword : word ∈ generator.seeds count) :
    word.length = layout.wordLength := by
  obtain ⟨index, -, rfl⟩ := List.mem_iterate.mp hword
  exact length_seedAt hlayout index

/-- Clamped and given shifts lead through the same seeds. -/
theorem iterate_next (hlayout : generator.validate = .ok layout)
    (index : Nat) :
    (generator.next layout)^[index] (.ofText generator.seed) =
      generator.seedAt index := by
  induction index with
  | zero => rfl
  | succ index ih =>
      rw [Function.iterate_succ_apply', ih, seedAt_succ,
        next_eq (length_seedAt hlayout index)]

/-- The seed with the index is the first that occurred before. -/
structure FirstRepeat (generator : Generator) (last : Nat) : Prop where
  nodup : (generator.seeds last).Nodup
  mem : generator.seedAt last ∈ generator.seeds last

theorem FirstRepeat.pos {last : Nat} (hlast : generator.FirstRepeat last) :
    0 < last := by
  rw [Nat.pos_iff_ne_zero]
  rintro rfl
  simpa [seeds] using hlast.mem

/-- A valid generator runs into a seed that occurred before, and its reference
sequence ends with the first one that did. -/
theorem exists_reference_eq (hlayout : generator.validate = .ok layout) :
    ∃ last, generator.FirstRepeat last ∧
      generator.reference = .ok (generator.seeds (last + 1)) := by
  have hseeds (count : Nat) : List.iterate (generator.next layout)
      (.ofText generator.seed) count = generator.seeds count := by
    rw [seeds, ← List.range_map_iterate, ← List.range_map_iterate]
    exact List.map_congr_left fun index _ => iterate_next hlayout index
  have hnext : ∀ other,
      (generator.next layout other).length = other.length := by
    simp [next]
  obtain ⟨last, hrepeats, horbit⟩ :=
    Word.exists_orbit_eq hnext (.ofText generator.seed)
  refine ⟨last, ⟨?_, ?_⟩, ?_⟩
  · have hnodup := hrepeats.nodup
    rwa [hseeds] at hnodup
  · have hmem := hrepeats.mem
    rwa [hseeds, iterate_next hlayout] at hmem
  · rw [reference, hlayout]
    simp only [bind, Except.bind, pure, Except.pure]
    rw [horbit, hseeds]

end Generator

end XorOrbit
