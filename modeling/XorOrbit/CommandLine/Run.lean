import XorOrbit.Catalog
import XorOrbit.CommandLine.Options
import XorOrbit.Generator.Loading
import XorOrbit.Layout.Regions
import XorOrbit.Machine
import XorOrbit.StateGraph.Json

/-!
# The command-line program

What the program prints and how it ends, as a function of its arguments and of
the files it can read.
-/

namespace XorOrbit.CommandLine

/-- Why the program fails. -/
inductive Failure
  /-- No generator was asked for. -/
  | nothingToRun
  | error (cause : Error)
  | configFile (path : String) (cause : Error)
  | synthesis (cause : Error)
  /-- The run is not the reference sequence. -/
  | mismatch (expected : List Word)

/-- A cause in words below what it is the cause of: every line is indented. -/
def causedBy (what cause : String) : String :=
  what ++ "\n\nCaused by:\n    " ++ "\n    ".intercalate (cause.splitOn "\n")

/-- The failure in words. -/
def Failure.message : Failure → String
  | nothingToRun => "one of --seed, --config or --preset is required"
  | error cause => cause.message
  | configFile path cause =>
    causedBy ("loading config " ++ path) cause.message
  | synthesis cause => causedBy "synthesizing program" cause.message
  | mismatch expected =>
    "run does not match the reference sequence: expected " ++
      Quoted.texts (expected.map Word.text)

/-- How the program ends: what it has printed, and why it failed if it did. -/
structure Ending where
  code : Nat
  output : String
  failure : Option Failure := none

/-- What is printed to the error stream. -/
def Ending.errors (ending : Ending) : String :=
  match ending.failure with
  | none => ""
  | some failure => "Error: " ++ failure.message ++ "\n"

/-- The number of steps after which a run is given up by default. -/
def defaultMaxSteps : Nat := 1000000

/-- The version text. -/
def version : String := "xorshift-tm-cli 0.0.1\n"

/-- The help text. -/
def help : String :=
  "Usage: xorshift-tm-cli [OPTIONS]\n\n" ++
  "  -s, --seed <SEED>            initial seed, a binary word\n" ++
  "  -a <A>                       left shift of the first step\n" ++
  "  -b <B>                       right shift of the second step\n" ++
  "  -c <C>                       left shift of the third step\n" ++
  "      --config <CONFIG>        load the configuration from a JSON file\n" ++
  "  -p, --preset <PRESET>        use a built-in preset by name\n" ++
  "  -l, --list                   list the built-in presets\n" ++
  "  -m, --max-steps <MAX_STEPS>  steps before giving up\n" ++
  "  -d, --debug                  print each configuration\n" ++
  "  -g, --graph                  print the state graph as JSON\n" ++
  "      --check                  compare with the arithmetic reference\n" ++
  "  -v, --verbose                log more\n" ++
  "  -h, --help                   print this help\n" ++
  "  -V, --version                print the version\n"

/-- Fills a text up to the given length with blanks. -/
def padRight (text : String) (length : Nat) : String :=
  text ++ String.ofList (List.replicate (length - text.length) ' ')

/-- One line of the list of presets. -/
def presetLine (entry : Catalog.Entry) : String :=
  let generator := entry.generator
  let shifts := [generator.a, generator.b, generator.c].map toString
  padRight generator.name 16 ++ " seed=" ++ generator.seed ++
    " shifts=(" ++ ", ".intercalate shifts ++ ")" ++
    " states=" ++ toString entry.stateCount ++
    " transitions=" ++ toString entry.transitionCount ++ "\n"

/-- The list of all presets. -/
def presetLines : Except Error String := do
  let entries ← (List.range Catalog.size).mapM Catalog.entry
  return String.join (entries.map presetLine)

/-- The generator before the options for its parameters are applied. -/
def baseGenerator (read : String → Except ReadFault String)
    (options : Options) : Except Failure Generator :=
  match options.config, options.preset with
  | some path, _ => (Generator.load read path).mapError (.configFile path)
  | none, some name => (Catalog.presetNamed name).mapError .error
  | none, none =>
    if options.seed.isSome then .ok (.new "" 1 2 1) else .error .nothingToRun

/-- The generator that the options ask for. -/
def resolve (read : String → Except ReadFault String) (options : Options) :
    Except Failure Generator := do
  let base ← baseGenerator read options
  let generator := { base with
    seed := options.seed.getD base.seed
    a := options.a.getD base.a
    b := options.b.getD base.b
    c := options.c.getD base.c }
  let _ ← generator.validate.mapError .error
  return generator

/-- The line that shows a machine's configuration. -/
def configurationLine (machine : Machine) : String :=
  let snapshot := machine.current.snapshot
  "Step: " ++ toString machine.stepCount ++ ", State: " ++ snapshot.state ++
    ", Tape: " ++ snapshot.tape ++ ", Head: " ++ toString snapshot.head ++ "\n"

/-- Runs a machine until `maxSteps` rules have been applied in all and adds a
line for each configuration that it enters.  A machine that has not applied
more rules before, such as a fresh one, stops where a test for equality with
`maxSteps` would stop it; one that has stops at once, where that test would let
it go on. -/
def runShown (machine : Machine) (maxSteps : Nat) (shown : String) :
    Outcome × Machine × String :=
  if machine.isAccepting then (.accepted, machine, shown)
  else if machine.stepCount < maxSteps then
    match _h : machine.step with
    | (.halted, machine) => (.halted, machine, shown)
    | (.continued, next) =>
      runShown next maxSteps (shown ++ configurationLine next)
  else (.exhausted, machine, shown)
termination_by maxSteps - machine.stepCount
decreasing_by
  have := Machine.stepCount_of_step_eq (by assumption)
  omega

/-- The lines that report the end of a run. -/
def reportLines (outcome : Outcome) (machine : Machine) : String :=
  let cells := machine.tape.cells
  let seed := (Regions.seed? cells).getD []
  let entries := Regions.history cells
  "Outcome: " ++ outcome.name ++ " after " ++ toString machine.stepCount ++
    " steps\n" ++
  "Seed: " ++ String.ofList seed ++ "\n" ++
  "History (" ++ toString entries.length ++ " entries):\n" ++
  String.join (entries.map fun entry => "  " ++ String.ofList entry ++ "\n")

/-- Runs a program and reports on it. -/
def runProgram (options : Options) (program : Program) :
    Outcome × Machine × String :=
  let machine := Machine.new program
  let maxSteps := options.maxSteps.getD defaultMaxSteps
  let (outcome, machine, shown) :=
    if options.debug then
      runShown machine maxSteps (configurationLine machine)
    else
      let (outcome, machine) := machine.run maxSteps
      (outcome, machine, "")
  (outcome, machine, shown ++ reportLines outcome machine)

/-- Whether a run has left the reference sequence in the log. -/
def checks (outcome : Outcome) (machine : Machine) (expected : List Word) :
    Bool :=
  outcome.isAccepted &&
    Regions.history machine.tape.cells == expected.map Word.cells

/-- Runs the generator that the options ask for. -/
def runGenerator (options : Options) (generator : Generator)
    (program : Program) : Ending :=
  let (outcome, machine, output) := runProgram options program
  if options.check then
    match generator.reference with
    | .error cause => ⟨1, output, some (.error cause)⟩
    | .ok expected =>
      if checks outcome machine expected then
        ⟨0, output ++ "Check passed.\n", none⟩
      else ⟨1, output, some (.mismatch expected)⟩
  else ⟨0, output, none⟩

/-- Does what the options ask for. -/
def runOptions (read : String → Except ReadFault String) (options : Options) :
    Ending :=
  if options.list then
    match presetLines with
    | .ok lines => ⟨0, lines, none⟩
    | .error cause => ⟨1, "", some (.error cause)⟩
  else
    match resolve read options with
    | .error failure => ⟨1, "", some failure⟩
    | .ok generator =>
      match generator.synthesize with
      | .error cause => ⟨1, "", some (.synthesis cause)⟩
      | .ok program =>
        if options.graph then ⟨0, program.graph.text ++ "\n", none⟩
        else runGenerator options generator program

/-- Runs the program with the given arguments. -/
def run (read : String → Except ReadFault String) (arguments : List String) :
    Ending :=
  match Options.ofArguments arguments with
  | .ok options => runOptions read options
  | .error .version => ⟨0, version, none⟩
  | .error .help => ⟨0, help, none⟩
  | .error .usage => ⟨2, "", none⟩

end XorOrbit.CommandLine
