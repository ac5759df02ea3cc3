/-!
# Command-line options

Arguments are taken from left to right and the first one that does not fit ends
the reading.  An option takes its value from the rest of its own argument or
from the next one, which must not look like an option.  No option may be given
twice, nor may `--config` and `--preset` be given together, and at least one
option has to be given.
-/

namespace XorOrbit.CommandLine

/-- The options that a program is run with. -/
structure Options where
  seed : Option String := none
  a : Option Nat := none
  b : Option Nat := none
  c : Option Nat := none
  config : Option String := none
  preset : Option String := none
  maxSteps : Option Nat := none
  list : Bool := false
  debug : Bool := false
  graph : Bool := false
  check : Bool := false
  verbose : Bool := false
deriving DecidableEq

/-- Why no program is run. -/
inductive Refusal
  /-- The arguments do not fit. -/
  | usage
  /-- Only the version was asked for. -/
  | version
  /-- Only help was asked for. -/
  | help
deriving DecidableEq

/-- The number of a text of decimal digits, which may have a plus sign and must
fit into 64 bits. -/
def natural? (text : String) : Option Nat :=
  let digits :=
    match text.toList with
    | '+' :: rest => rest
    | chars => chars
  if digits.isEmpty || !digits.all Char.isDigit then none
  else
    let value := digits.foldl
      (fun value digit => 10 * value + (digit.toNat - '0'.toNat)) 0
    if value < UInt64.size then some value else none

/-- Sets an option that has not been given yet. -/
def once (given : Option α) (value : Option α) : Except Refusal (Option α) :=
  match given, value with
  | none, some value => .ok (some value)
  | _, _ => .error .usage

/-- Sets a flag that has not been given yet. -/
def raise (given : Bool) : Except Refusal Bool :=
  if given then .error .usage else .ok true

/-- What a flag does. -/
abbrev Flag := Options → Except Refusal Options

/-- What an option does with its value. -/
abbrev Setter := Options → String → Except Refusal Options

/-- An option: it either stands alone or takes a value. -/
inductive Switch
  | flag (apply : Flag)
  | setter (apply : Setter)

/-- The option of a natural number. -/
def naturalSetter (get : Options → Option Nat)
    (set : Options → Option Nat → Options) : Switch :=
  .setter fun given value => do
    return set given (← once (get given) (natural? value))

/-- Switches with a one-letter name. -/
def short? : Char → Option Switch
  | 's' => some (.setter fun given value => do
      return { given with seed := ← once given.seed (some value) })
  | 'a' => some (naturalSetter (·.a) fun given a => { given with a })
  | 'b' => some (naturalSetter (·.b) fun given b => { given with b })
  | 'c' => some (naturalSetter (·.c) fun given c => { given with c })
  | 'p' => some (.setter fun given value => do
      return { given with preset := ← once given.preset (some value) })
  | 'm' => some (naturalSetter (·.maxSteps)
      fun given maxSteps => { given with maxSteps })
  | 'l' => some (.flag fun given => do
      return { given with list := ← raise given.list })
  | 'd' => some (.flag fun given => do
      return { given with debug := ← raise given.debug })
  | 'g' => some (.flag fun given => do
      return { given with graph := ← raise given.graph })
  | 'v' => some (.flag fun given => do
      return { given with verbose := ← raise given.verbose })
  | 'V' => some (.flag fun _ => .error .version)
  | 'h' => some (.flag fun _ => .error .help)
  | _ => none

/-- Switches with a full name. -/
def long? : String → Option Switch
  | "seed" => short? 's'
  | "preset" => short? 'p'
  | "max-steps" => short? 'm'
  | "list" => short? 'l'
  | "debug" => short? 'd'
  | "graph" => short? 'g'
  | "verbose" => short? 'v'
  | "version" => short? 'V'
  | "help" => short? 'h'
  | "config" => some (.setter fun given value => do
      let file := if value.isEmpty then none else some value
      return { given with config := ← once given.config file })
  | "check" => some (.flag fun given => do
      return { given with check := ← raise given.check })
  | _ => none

/-- What one argument leaves open. -/
inductive Pending
  /-- Nothing. -/
  | none
  /-- The value of an option. -/
  | value (apply : Setter)

/-- Applies the letters of an argument; the first option with a value takes the
rest of the argument as its value. -/
def applyLetters (given : Options) : List Char →
    Except Refusal (Options × Pending)
  | [] => .ok (given, .none)
  | letter :: letters =>
    match short? letter with
    | none => .error .usage
    | some (.flag apply) => do applyLetters (← apply given) letters
    | some (.setter apply) =>
      match letters with
      | [] => .ok (given, .value apply)
      | '=' :: value => do
        return (← apply given (String.ofList value), .none)
      | value => do return (← apply given (String.ofList value), .none)

/-- Applies a full name, with a value if there is an equals sign. -/
def applyName (given : Options) (chars : List Char) :
    Except Refusal (Options × Pending) :=
  let name := String.ofList (chars.takeWhile (· != '='))
  match long? name, chars.dropWhile (· != '=') with
  | none, _ => .error .usage
  | some (.flag apply), [] => do return (← apply given, .none)
  | some (.flag _), _ :: _ => .error .usage
  | some (.setter apply), [] => .ok (given, .value apply)
  | some (.setter apply), _ :: value => do
    return (← apply given (String.ofList value), .none)

/-- Whether an argument may be the value of the option before it. -/
def isValue (argument : String) : Bool :=
  !argument.startsWith "-" || argument == "-"

/-- Applies one argument; those that are no options are refused. -/
def applyArgument (given : Options) (argument : String) :
    Except Refusal (Options × Pending) :=
  match argument.toList with
  | '-' :: '-' :: name => applyName given name
  | '-' :: letter :: letters => applyLetters given (letter :: letters)
  | _ => .error .usage

/-- Applies arguments from left to right.  Two hyphens end the options, so
nothing may follow them. -/
def applyAll (given : Options) : List String → Except Refusal Options
  | [] | ["--"] => .ok given
  | argument :: rest => do
    match ← applyArgument given argument with
    | (given, .none) => applyAll given rest
    | (given, .value apply) =>
      match rest with
      | [] => throw .usage
      | value :: rest =>
        if isValue value then applyAll (← apply given value) rest
        else throw .usage

/-- Reads the arguments of the program. -/
def Options.ofArguments (arguments : List String) : Except Refusal Options := do
  let options ← applyAll {} arguments
  if options = {} ∨ (options.config.isSome ∧ options.preset.isSome) then
    throw .usage
  return options

end XorOrbit.CommandLine
