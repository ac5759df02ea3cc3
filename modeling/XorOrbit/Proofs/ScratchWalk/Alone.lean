import XorOrbit.Proofs.Fragment.Alone
import XorOrbit.Proofs.ScratchWalk.Trace

/-!
# Walks on their own

A walk needs a blank in front of the scratch word, on which it turns when it
goes home.  What stands further left does not matter, and the blank is made if
the tape begins with the scratch word.  Run on its own, a walk ends with the
words that `walked` gives, and all the time nothing but these two words changes.
-/

namespace XorOrbit.Synthesis.ScratchWalk

/-- The cells of a tape with a scratch word in front of a seed: blanks before
the scratch word, and anything before these and behind the seed. -/
def walkCells (outer : List Char) (padding : Nat) (scratch : List Char)
    (seed : Word) (right : List Char) : List Char :=
  outer ++ blanks padding ++ scratch ++ Symbol.seedStart :: seed.cells ++ right

/-- The tape can be cut at any of the blanks. -/
theorem walkCells_eq_append {cut padding : Nat} (hcut : cut ≤ padding)
    (outer scratch : List Char) (seed : Word) (right : List Char) :
    walkCells outer padding scratch seed right =
      outer ++ blanks cut ++
        walkCells [] (padding - cut) scratch seed right := by
  obtain ⟨rest, rfl⟩ := Nat.exists_eq_add_of_le hcut
  simp only [walkCells, Nat.add_sub_cancel_left, ← blanks_append_blanks,
    List.append_assoc, List.cons_append, List.nil_append]

/-- The cells of a tape cut behind the blanks, where a walk ends. -/
theorem cells_rightOf_walkCells (outer : List Char) (padding : Nat)
    (scratch : List Char) (seed : Word) (right : List Char) :
    (Tape.rightOf (outer ++ blanks padding)
      (walkCells [] 0 scratch seed right)).cells =
        walkCells outer padding scratch seed right := by
  have hne : walkCells [] 0 scratch seed right ≠ [] := by
    simp [walkCells]
  obtain ⟨symbol, others, hcells⟩ := List.exists_cons_of_ne_nil hne
  rw [walkCells_eq_append (Nat.le_refl padding), Nat.sub_self, hcells,
    Tape.cells_rightOf_cons]

theorem length_append_blanks (outer : List Char) (count : Nat) :
    (outer ++ blanks count).length = outer.length + count := by
  simp [blanks]

/-- The cells before the scratch word are those from the start, with a new
blank if there were none at all. -/
def Margin (outer : List Char) (padding : Nat) (left : List Char) : Prop :=
  ∃ count, (count = padding ∨ count = max padding 1) ∧
    left = outer ++ blanks count

theorem length_walked (effect : Effect) (count index : Nat)
    (scratch seed : Word) :
    (walked effect count index scratch seed).1.length = scratch.length := by
  induction count generalizing index scratch seed with
  | zero => rfl
  | succ count ih =>
      cases scratch with
      | nil => rfl
      | cons bit scratch => simp [walked, ih]

section Alone

variable {fragment : Fragment} {start done : String} {layout : Layout}
  {ns : Namespace} {visitRules : Visit → List Rule} {effect : Effect}
  {valid : Word → Prop} {outer right : List Char} {padding head : Nat}
  (scratch : Word) {seed : Word}

/-- The trace of a walk that starts on one of the blanks before the scratch
word, on its first bit, or on the seed start if there is none. -/
theorem walk_trace {program : Program}
    (hfollows : program.Follows (walkRules start done layout ns visitRules))
    (hacts : Acts program layout ns effect valid right)
    (hpadding : outer = [] ∨ 0 < padding) (hhead : head ≤ padding)
    (hseed : valid seed) :
    valid (walked effect layout.wordLength 0 scratch seed).2 ∧
      Trace program
        (Walking start ns valid scratch.length
          (walkCells outer padding scratch.cells seed right) right
          (Margin outer padding))
        ⟨start, .rightOf (outer ++ blanks head)
          (walkCells [] (padding - head) scratch.cells seed right)⟩
        ⟨done, .rightOf (outer ++ blanks (max padding 1))
          (walkCells [] 0
            (walked effect layout.wordLength 0 scratch seed).1.cells
            (walked effect layout.wordLength 0 scratch seed).2 right)⟩ := by
  have hblanks : blanks head ++ blanks (padding - head) = blanks padding := by
    rw [blanks_append_blanks, Nat.add_sub_cancel' hhead]
  have hlast : outer ++ blanks (padding - 1) ++ [Symbol.blank] =
      outer ++ blanks (max padding 1) := by
    rw [List.append_assoc, blanks_max_one]
  have hbase (rest : List Char) :
      Tape.leftOf (outer ++ blanks head ++ blanks (padding - head)) rest =
        Tape.leftOf (outer ++ blanks (padding - 1) ++ [Symbol.blank]) rest := by
    rw [hlast, List.append_assoc, hblanks]
    rcases Nat.eq_zero_or_pos padding with rfl | hpos
    · obtain rfl : outer = [] := hpadding.resolve_right (Nat.lt_irrefl 0)
      rfl
    · rw [Nat.max_eq_left hpos]
  have hmargin : Margin outer padding
      (outer ++ blanks head ++ blanks (padding - head)) :=
    ⟨padding, Or.inl rfl, by rw [List.append_assoc, hblanks]⟩
  have hmargin' : Margin outer padding
      (outer ++ blanks (padding - 1) ++ [Symbol.blank]) :=
    ⟨max padding 1, Or.inr rfl, hlast⟩
  obtain ⟨hvalid, htrace⟩ := scratchWalk_trace hfollows hacts
    (outer ++ blanks head) (blanks (padding - head))
    (outer ++ blanks (padding - 1)) (by simp) hbase hmargin hmargin' scratch
    seed hseed
  refine ⟨hvalid, ?_⟩
  rw [hlast, List.append_assoc outer, hblanks] at htrace
  simpa [walkCells] using htrace

variable (hrules : fragment.Comprises
    (walkRules start done layout ns visitRules))
  (hleaves : ∀ rule ∈ walkRules start done layout ns visitRules,
    rule.state ∉ [done])
  (hacts : ∀ program : Program,
    program.Follows (walkRules start done layout ns visitRules) →
      Acts program layout ns effect valid right)
  (hpadding : outer = [] ∨ 0 < padding) (hhead : head ≤ padding)
  (hseed : valid seed)
include hrules hleaves hacts hpadding hhead hseed

/-- On its own a walk ends on the first bit of the new scratch word, or on the
seed start if there is none. -/
theorem walk_endsIn :
    (fragment.program start [done]
        (walkCells outer padding scratch.cells seed right)
        (outer.length + head)).EndsIn
      ⟨done, .ofCells
        (walkCells outer (max padding 1)
          (walked effect layout.wordLength 0 scratch seed).1.cells
          (walked effect layout.wordLength 0 scratch seed).2 right)
        (outer.length + max padding 1) Symbol.blank⟩ := by
  have hends := hrules.endsIn hleaves (List.mem_singleton_self done)
    (walk_trace scratch hrules.follows_program
      (hacts _ hrules.follows_program) hpadding hhead hseed).2
  have hfinal := walkCells_eq_append (Nat.le_refl (max padding 1)) outer
    (walked effect layout.wordLength 0 scratch seed).1.cells
    (walked effect layout.wordLength 0 scratch seed).2 right
  rw [Nat.sub_self] at hfinal
  rwa [← walkCells_eq_append hhead, ← hfinal, length_append_blanks,
    length_append_blanks] at hends

/-- During the run of a walk nothing but the scratch word and the seed
changes. -/
theorem walk_after (steps : Nat) :
    ∃ count scratch' seed', (count = padding ∨ count = max padding 1) ∧
      scratch'.length = scratch.length ∧ valid seed' ∧
      ((Machine.new (fragment.program start [done]
          (walkCells outer padding scratch.cells seed right)
          (outer.length + head))).after steps).tape.cells =
        walkCells outer count scratch' seed' right := by
  have hfollows {cells : List Char} {head : Nat} :
      (fragment.program start [done] cells head).Follows
        (walkRules start done layout ns visitRules) := hrules.follows_program
  obtain ⟨hvalid, htrace⟩ := walk_trace scratch hfollows (hacts _ hfollows)
    hpadding hhead hseed
  have hafter := hrules.via_or_eq_after hleaves
    (List.mem_singleton_self done) htrace steps
  rw [← walkCells_eq_append hhead, length_append_blanks] at hafter
  rcases hafter with (⟨-, hcells⟩ | ⟨-, left, scratch', seed', ⟨count, hcount,
    hleft⟩, hlength, -, hseed', hcells⟩) | hleft
  · exact ⟨padding, scratch.cells, seed, Or.inl rfl, scratch.length_cells,
      hseed, hcells⟩
  · refine ⟨count, scratch', seed', hcount, hlength, hseed', ?_⟩
    rw [hcells, hleft, walkCells]
  · refine ⟨max padding 1,
      (walked effect layout.wordLength 0 scratch seed).1.cells,
      (walked effect layout.wordLength 0 scratch seed).2, Or.inr rfl, ?_,
      hvalid, ?_⟩
    · rw [Word.length_cells, length_walked]
    · rw [Machine.tape, hleft, cells_rightOf_walkCells]

end Alone

end XorOrbit.Synthesis.ScratchWalk
