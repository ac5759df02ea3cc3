import XorOrbit.Proofs.CopySeed.Trace
import XorOrbit.Proofs.Fragment.Comprises

/-!
# The states of the copy
-/

namespace XorOrbit.Synthesis

open XorOrbit.Part

/-- The states of the copy, each with the symbols that it reads. -/
def copySeedRows : List (Label × List Char) :=
  [([], Symbol.bits ++ [Symbol.blank, Symbol.seedStart] ++
      [Symbol.seedEnd]),
    ([word "seek", word "start"], Symbol.bits ++ [Symbol.seedStart]),
    ([word "clear"], Symbol.bits ++ [Symbol.blank]),
    ([word "to", word "end"],
      Symbol.bits ++ [Symbol.blank, Symbol.seedStart] ++ Symbol.marks ++
        [Symbol.seedEnd]),
    ([word "find"], Symbol.marks ++ Symbol.bits ++ [Symbol.seedStart]),
    ([word "carry", bit false], Symbol.bits ++ [Symbol.seedStart]),
    ([word "drop", bit false], Symbol.bits ++ [Symbol.blank]),
    ([word "carry", bit true], Symbol.bits ++ [Symbol.seedStart]),
    ([word "drop", bit true], Symbol.bits ++ [Symbol.blank]),
    ([word "unmark"], Symbol.marks ++ [Symbol.seedEnd]),
    ([word "rewind"], Symbol.bits ++ [Symbol.seedStart]),
    ([word "home"], Symbol.bits ++ [Symbol.blank])]

theorem nodup_copySeedLabels : (copySeedRows.map Prod.fst).Nodup := by
  decide

variable (start done : String) (ns : Namespace)

/-- The rules of the copy are for the states listed in `copySeedRows`. -/
theorem fits_copySeed :
    (ns.outline start copySeedRows).Fits (copySeedRules start done ns) := by
  refine ⟨?_, ?_, ?_⟩
  · simp [copySeedRows, copySeedRules, copyBitRules, Namespace.locate,
      Rule.key, Function.comp_def]
    rfl
  · simp only [Namespace.outline, List.forall_mem_map]
    decide
  · simp only [Namespace.outline, List.forall_mem_map]
    decide

/-- The fragment of the copy has exactly the rules of the copy. -/
theorem copySeed_comprises (hstart : ¬ ns.Owns start) :
    (copySeed start done ns).Comprises (copySeedRules start done ns) :=
  Fragment.comprises_ofRules (fits_copySeed start done ns)
    (Namespace.nodup_states_outline hstart nodup_copySeedLabels)

end XorOrbit.Synthesis
