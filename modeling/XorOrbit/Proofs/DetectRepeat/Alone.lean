import XorOrbit.Proofs.DetectRepeat.Outline
import XorOrbit.Proofs.DetectRepeat.Trace
import XorOrbit.Proofs.Fragment.Alone

/-!
# The detection on its own

The detection leaves for one of two states, so it also accepts in both when it
is run on its own.  The first that it meets tells whether the seed was in the
log.
-/

namespace XorOrbit.Synthesis

open DetectRepeat

/-- On its own the detection accepts in `repeated` if the seed was in the log
before and in `fresh` if it was not, with the head on the seed start.  The log
has become longer by the seed, and no other cell has changed. -/
theorem detectRepeat_endsIn (start fresh repeated : String)
    (layout : Layout) (ns : Namespace)
    (hlabels : ns.Outside [start, fresh, repeated])
    (seed : Word) (hseed : seed.length = layout.wordLength)
    (entries : List Word)
    (hentries : ∀ entry ∈ entries, entry.length = layout.wordLength)
    (left row : List Char) (hrow : row ⊆ Symbol.blank :: Symbol.bits)
    (reserve : Nat) :
    ∃ fragment, detectRepeat start fresh repeated layout ns = .ok fragment ∧
      (fragment.program start [fresh, repeated]
        (left ++ row ++ Symbol.seedStart :: seed.cells ++ Symbol.seedEnd ::
          (logCells entries ++ blanks reserve)) left.length).EndsIn
        ⟨if seed ∈ entries then repeated else fresh, .ofCells
          (left ++ row ++ Symbol.seedStart :: seed.cells ++
            Symbol.seedEnd :: (logCells (entries ++ [seed]) ++
              blanks (reserve - (layout.wordLength + 1))))
          (left ++ row).length Symbol.blank⟩ := by
  obtain ⟨fragment, hfragment, hrules⟩ := detectRepeat_comprises start fresh
    repeated layout ns (hlabels.not_owns start List.mem_cons_self)
  have hleaves := hlabels.state_notMem
    (fits_detectRepeat start fresh repeated layout ns)
  have hexit : (if seed ∈ entries then repeated else fresh) ∈
      [fresh, repeated] := by
    split
    · exact List.mem_cons_of_mem _ (List.mem_singleton_self repeated)
    · exact List.mem_cons_self
  refine ⟨fragment, hfragment, ?_⟩
  have hends := hrules.endsIn hleaves hexit
    (detectRepeat_trace hrules.follows_program seed hseed entries hentries
      left row hrow reserve)
  simpa only [List.append_assoc] using hends

/-- A seed that is neither the first nor the last entry is found. -/
theorem detectRepeat_endsIn_middle_entry :
    (Namespace.mk "detect").Outside ["entry", "continue", "cycle"] ∧
      ∃ fragment,
        detectRepeat "entry" "continue" "cycle" ⟨2, by decide⟩ ⟨"detect"⟩ =
            .ok fragment ∧
          (fragment.program "entry" ["continue", "cycle"]
            "01_@10#11$10$00$____".toList 0).EndsIn
              ⟨"cycle", .ofCells "01_@10#11$10$00$10$_".toList 3
                Symbol.blank⟩ := by
  have hlabels : (Namespace.mk "detect").Outside
      ["entry", "continue", "cycle"] :=
    Namespace.outside_of_notMem _ (by decide) (by decide)
  obtain ⟨fragment, hfragment, hends⟩ := detectRepeat_endsIn "entry"
    "continue" "cycle" ⟨2, by decide⟩ ⟨"detect"⟩ hlabels [true, false] rfl
    [[true, true], [true, false], [false, false]] (by decide) []
    "01_".toList (by decide) 4
  exact ⟨hlabels, fragment, hfragment, hends⟩

end XorOrbit.Synthesis
