import XorOrbit.Generator
import XorOrbit.Program.Analysis
import XorOrbit.Synthesis.CommitSeed
import XorOrbit.Synthesis.CopySeed
import XorOrbit.Synthesis.DetectRepeat
import XorOrbit.Synthesis.XorOffset

/-!
# The complete program of a generator

Each subroutine ends in the state in which the next one starts:

    start -> scan_initial -> cycle -> shift_a -> commit_a -> shift_b -> commit_b
          -> shift_c -> commit_c -> scan -> cycle -> …

`scan_initial` and `scan` log the seed and leave for `cycle_found`, the only
accepting state, once it repeats.
-/

namespace XorOrbit.Synthesis

/-- The state in which every synthesized program starts. -/
def startState : String := "start"

/-- The accepting state, which is entered when a seed repeats. -/
def acceptState : String := "cycle_found"

/-- The rules that go from the first seed bit to the seed start. -/
def startRules : List Rule :=
  Phrase.pass startState Symbol.bits .left ++
    [⟨startState, Symbol.seedStart, Symbol.seedStart, .stay, "scan_initial"⟩]

/-- One shift of a generator: its letter, its offset, the states in which its
two subroutines start, and the one in which the second ends. -/
structure Stage where
  suffix : String
  offset : Int
  shift : String
  commit : String
  next : String

/-- The three shifts in their order. -/
def stages (generator : Generator) (layout : Layout) : List Stage :=
  let (a, b, c) := generator.offsets layout
  [⟨"a", a, "shift_a", "commit_a", "shift_b"⟩,
    ⟨"b", b, "shift_b", "commit_b", "shift_c"⟩,
    ⟨"c", c, "shift_c", "commit_c", "scan"⟩]

/-- Adds the two subroutines of a stage. -/
def addStage (layout : Layout) (fragment : Fragment) (stage : Stage) :
    Except Error Fragment := do
  let shifted ← xorOffset stage.shift stage.commit stage.offset layout
    ⟨"xor_" ++ stage.suffix⟩
  let fragment ← fragment.merge shifted
  let committed ← commitSeed stage.commit stage.next layout
    ⟨"update_" ++ stage.suffix⟩
  fragment.merge committed

/-- All rules of a generator's program. -/
def pipeline (generator : Generator) (layout : Layout) :
    Except Error Fragment := do
  let fragment ← Fragment.empty.merge (.ofRules startRules)
  let first ← detectRepeat "scan_initial" "cycle" acceptState layout
    ⟨"detect_initial"⟩
  let fragment ← fragment.merge first
  let fragment ← fragment.merge (copySeed "cycle" "shift_a" ⟨"copy"⟩)
  let fragment ← (stages generator layout).foldlM (addStage layout) fragment
  let later ← detectRepeat "scan" "cycle" acceptState layout ⟨"detect"⟩
  fragment.merge later

/-- The program with a generator's rules and initial tape. -/
def assemble (generator : Generator) (layout : Layout) (table : Table) :
    Program where
  name := generator.name
  initialState := startState
  tape := layout.initialCells generator.seed generator.leftPadding
    generator.historyReserve
  head := layout.initialHead generator.leftPadding
  blank := Symbol.blank
  accepting := Std.ExtTreeSet.ofList [acceptState]
  table

end XorOrbit.Synthesis

namespace XorOrbit

open Synthesis in
/-- The program that runs a generator on a tape until a seed repeats. -/
def Generator.synthesize (generator : Generator) : Except Error Program := do
  let layout ← generator.validate
  let fragment ← pipeline generator layout
  let program := assemble generator layout fragment.table
  match program.defect? with
  | some defect => throw (.defective defect)
  | none => return program

end XorOrbit
