import XorOrbit.Proofs.CommandLine.Shown
import XorOrbit.Proofs.Pipeline.Synthesis

/-!
# Showing configurations changes nothing else

The option that shows the configurations of a run neither disturbs the reading
of the other options nor the run.  With it the program prints the configurations
first and then what it prints without it, and it ends in the same way.
-/

namespace XorOrbit.CommandLine

/-- The options with the configurations being shown. -/
def Options.withDebug (given : Options) : Options :=
  { given with debug := true }

/-! ## Reading the other options -/

/-- Applying a switch has the same effect on the other options whether or not
configurations are shown already, unless it is the switch that shows them. -/
def Carries (apply : Flag) : Prop :=
  ∀ given options, apply given = .ok options → options.debug = false →
    given.debug = false ∧ apply given.withDebug = .ok options.withDebug

/-- The switch, with any value if it takes one, does not depend on whether
configurations are shown. -/
def Switch.Carries : Switch → Prop
  | .flag apply => CommandLine.Carries apply
  | .setter apply => ∀ value, CommandLine.Carries (apply · value)

/-- The same for the option that still waits for its value. -/
def Pending.Carries : Pending → Prop
  | .none => True
  | .value apply => ∀ value, CommandLine.Carries (apply · value)

theorem exists_of_bind_eq_ok {ε α β : Type} {first : Except ε α}
    {rest : α → Except ε β} {result : β}
    (hbind : (first >>= rest) = .ok result) :
    ∃ value, first = .ok value ∧ rest value = .ok result := by
  cases first with
  | error cause => contradiction
  | ok value => exact ⟨value, rfl, hbind⟩

/-- A switch that sets an option from its old value, where neither has to do
with showing configurations. -/
theorem carries_of_field {α : Type} (get : Options → α)
    (set : Options → α → Options) (change : α → Except Refusal α)
    (hget : ∀ given : Options, get given.withDebug = get given := by
      intros; rfl)
    (hset : ∀ (given : Options) value,
      set given.withDebug value = (set given value).withDebug := by
      intros; rfl)
    (hdebug : ∀ given value, (set given value).debug = given.debug := by
      intros; rfl) :
    Carries fun given => do return set given (← change (get given)) := by
  intro given options happly hfalse
  obtain ⟨value, hvalue, hoptions⟩ := exists_of_bind_eq_ok happly
  obtain rfl := Except.ok.inj hoptions
  refine ⟨by rwa [hdebug] at hfalse, ?_⟩
  simp only [hget, hvalue, ← hset]
  rfl

/-- The switch that shows configurations does not leave them hidden. -/
theorem carries_debug :
    Carries fun given => do
      return { given with debug := ← raise given.debug } := by
  intro given options happly hfalse
  obtain ⟨value, hvalue, hoptions⟩ := exists_of_bind_eq_ok happly
  obtain rfl := Except.ok.inj hoptions
  obtain rfl : value = false := hfalse
  cases hgiven : given.debug with
  | true => simp [raise, hgiven] at hvalue
  | false => simp [raise, hgiven] at hvalue

theorem carries_error (refusal : Refusal) :
    Carries fun _ => .error refusal := by
  intro given options happly
  contradiction

theorem short?_carries {letter : Char} {switch : Switch}
    (hshort : short? letter = some switch) : switch.Carries := by
  unfold short? at hshort
  split at hshort
  case h_13 => contradiction
  all_goals obtain rfl := Option.some.inj hshort
  case h_1 =>
    exact fun value => carries_of_field (·.seed)
      (fun given seed => { given with seed }) (once · (some value))
  case h_2 =>
    exact fun value => carries_of_field (·.a)
      (fun given a => { given with a }) (once · (natural? value))
  case h_3 =>
    exact fun value => carries_of_field (·.b)
      (fun given b => { given with b }) (once · (natural? value))
  case h_4 =>
    exact fun value => carries_of_field (·.c)
      (fun given c => { given with c }) (once · (natural? value))
  case h_5 =>
    exact fun value => carries_of_field (·.preset)
      (fun given preset => { given with preset }) (once · (some value))
  case h_6 =>
    exact fun value => carries_of_field (·.maxSteps)
      (fun given maxSteps => { given with maxSteps }) (once · (natural? value))
  case h_7 =>
    exact carries_of_field (·.list) (fun given list => { given with list })
      raise
  case h_8 => exact carries_debug
  case h_9 =>
    exact carries_of_field (·.graph) (fun given graph => { given with graph })
      raise
  case h_10 =>
    exact carries_of_field (·.verbose)
      (fun given verbose => { given with verbose }) raise
  case h_11 => exact carries_error .version
  case h_12 => exact carries_error .help

theorem long?_carries {name : String} {switch : Switch}
    (hlong : long? name = some switch) : switch.Carries := by
  unfold long? at hlong
  split at hlong
  case h_10 =>
    obtain rfl := Option.some.inj hlong
    exact fun value => carries_of_field (·.config)
      (fun given config => { given with config })
      (once · (if value.isEmpty then none else some value))
  case h_11 =>
    obtain rfl := Option.some.inj hlong
    exact carries_of_field (·.check) (fun given check => { given with check })
      raise
  case h_12 => contradiction
  all_goals exact short?_carries hlong

/-! ## Reading arguments -/

/-- What an argument does to the other options, and the option that it leaves
waiting for a value, do not depend on whether configurations are shown. -/
def CarriesOn (apply : Options → Except Refusal (Options × Pending)) : Prop :=
  ∀ given options pending, apply given = .ok (options, pending) →
    pending.Carries ∧
      (options.debug = false → given.debug = false ∧
        apply given.withDebug = .ok (options.withDebug, pending))

theorem Carries.done {apply : Flag} (hcarries : Carries apply) :
    CarriesOn fun given => do return (← apply given, .none) := by
  intro given options pending happly
  obtain ⟨next, hnext, hrest⟩ := exists_of_bind_eq_ok happly
  obtain ⟨rfl, rfl⟩ := Prod.mk.inj (Except.ok.inj hrest)
  refine ⟨trivial, fun hfalse => ?_⟩
  obtain ⟨hgiven, hnext'⟩ := hcarries given next hnext hfalse
  refine ⟨hgiven, ?_⟩
  simp only [hnext']
  rfl

/-- An option without its value changes nothing yet. -/
theorem Switch.Carries.waiting {apply : Setter}
    (hcarries : (Switch.setter apply).Carries) :
    CarriesOn fun given => .ok (given, .value apply) := by
  intro given options pending happly
  obtain ⟨rfl, rfl⟩ := Prod.mk.inj (Except.ok.inj happly)
  exact ⟨hcarries, fun hfalse => ⟨hfalse, rfl⟩⟩

theorem carriesOn_letters (letters : List Char) :
    CarriesOn (applyLetters · letters) := by
  intro given options pending happly
  induction letters generalizing given with
  | nil =>
      obtain ⟨rfl, rfl⟩ := Prod.mk.inj (Except.ok.inj happly)
      exact ⟨trivial, fun hfalse => ⟨hfalse, rfl⟩⟩
  | cons letter letters ih =>
      simp only [applyLetters] at happly ⊢
      cases hshort : short? letter with
      | none => simp [hshort] at happly
      | some switch =>
          have hcarries := short?_carries hshort
          cases switch with
          | flag apply =>
              simp only [hshort] at happly ⊢
              obtain ⟨next, hnext, hrest⟩ := exists_of_bind_eq_ok happly
              obtain ⟨hpending, hcontinues⟩ := ih next hrest
              refine ⟨hpending, fun hfalse => ?_⟩
              obtain ⟨hfalse', hrest'⟩ := hcontinues hfalse
              obtain ⟨hgiven, hnext'⟩ := hcarries given next hnext hfalse'
              refine ⟨hgiven, ?_⟩
              rw [hnext']
              exact hrest'
          | setter apply =>
              simp only [hshort] at happly ⊢
              split at happly
              · exact hcarries.waiting given options pending happly
              · exact (hcarries _).done given options pending happly
              · exact (hcarries _).done given options pending happly

theorem carriesOn_name (chars : List Char) :
    CarriesOn (applyName · chars) := by
  intro given options pending happly
  simp only [applyName] at happly ⊢
  cases hlong : long? (String.ofList (chars.takeWhile (· != '='))) with
  | none => simp [hlong] at happly
  | some switch =>
      have hcarries := long?_carries hlong
      cases switch with
      | flag apply =>
          cases hvalue : chars.dropWhile (· != '=') with
          | nil =>
              simp only [hlong, hvalue] at happly ⊢
              exact Carries.done hcarries given options pending happly
          | cons equals value => simp [hlong, hvalue] at happly
      | setter apply =>
          cases hvalue : chars.dropWhile (· != '=') with
          | nil =>
              simp only [hlong, hvalue] at happly ⊢
              exact hcarries.waiting given options pending happly
          | cons equals value =>
              simp only [hlong, hvalue] at happly ⊢
              exact (hcarries _).done given options pending happly

theorem carriesOn_argument (argument : String) :
    CarriesOn (applyArgument · argument) := by
  intro given options pending happly
  simp only [applyArgument] at happly ⊢
  split at happly
  · exact carriesOn_name _ given options pending happly
  · exact carriesOn_letters _ given options pending happly
  · contradiction

/-- All arguments together have the same effect on the other options whether or
not configurations are shown already. -/
theorem carries_all : ∀ arguments, Carries (applyAll · arguments)
  | [], given, options, happly, hfalse => by
      obtain rfl := Except.ok.inj happly
      exact ⟨hfalse, rfl⟩
  | argument :: rest, given, options, happly, hfalse => by
      by_cases hend : argument = "--" ∧ rest = []
      · obtain ⟨rfl, rfl⟩ := hend
        obtain rfl := Except.ok.inj happly
        exact ⟨hfalse, rfl⟩
      · have hmore : argument = "--" → rest = [] → False :=
          fun hargument hrest => hend ⟨hargument, hrest⟩
        simp only [applyAll.eq_3 _ _ _ hmore] at happly ⊢
        obtain ⟨⟨next, pending⟩, hnext, hrest⟩ :=
          exists_of_bind_eq_ok happly
        obtain ⟨hpending, hcontinues⟩ :=
          carriesOn_argument argument given next pending hnext
        cases pending with
        | none =>
            obtain ⟨hfalse', hrest'⟩ :=
              carries_all rest next options hrest hfalse
            obtain ⟨hgiven, hnext'⟩ := hcontinues hfalse'
            simp only at hnext'
            rw [hnext']
            exact ⟨hgiven, hrest'⟩
        | value apply =>
            cases rest with
            | nil => contradiction
            | cons value rest =>
                simp only at hrest
                split at hrest
                · next hvalue =>
                    obtain ⟨later, hlater, hrest⟩ :=
                      exists_of_bind_eq_ok hrest
                    obtain ⟨hfalse', hrest'⟩ :=
                      carries_all rest later options hrest hfalse
                    obtain ⟨hfalse', hlater'⟩ :=
                      hpending value next later hlater hfalse'
                    obtain ⟨hgiven, hnext'⟩ := hcontinues hfalse'
                    simp only at hlater' hnext'
                    rw [hnext']
                    simp only [bind, Except.bind, hvalue, if_true, hlater']
                    exact ⟨hgiven, hrest'⟩
                · contradiction

/-- Asking for the configurations before all else leaves the other options as
they are. -/
theorem ofArguments_cons_debug {name : String}
    (hname : name ∈ ["--debug", "-d"]) {arguments : List String}
    {options : Options} (hread : Options.ofArguments arguments = .ok options)
    (hfalse : options.debug = false) :
    Options.ofArguments (name :: arguments) = .ok options.withDebug := by
  obtain ⟨given, hall, hchecked⟩ := exists_of_bind_eq_ok hread
  have hfirst : applyArgument {} name =
      .ok (Options.withDebug {}, .none) := by
    simp only [List.mem_cons, List.not_mem_nil, or_false] at hname
    rcases hname with rfl | rfl
    · rfl
    · rfl
  have hmore : name = "--" → arguments = [] → False := by
    rintro rfl
    simp at hname
  split at hchecked
  · contradiction
  · next hsome =>
      obtain rfl := Except.ok.inj hchecked
      obtain ⟨-, hall'⟩ := carries_all arguments {} given hall hfalse
      have hboth : ¬ (given.withDebug = {} ∨
          (given.withDebug.config.isSome ∧ given.withDebug.preset.isSome)) := by
        rintro (hnone | htwo)
        · exact absurd (congrArg Options.debug hnone)
            (by simp [Options.withDebug])
        · exact hsome (Or.inr htwo)
      simp only at hall'
      rw [Options.ofArguments, applyAll.eq_3 _ _ _ hmore, hfirst]
      simp only [bind, Except.bind, hall', if_neg hboth]
      rfl

/-! ## The run -/

/-- The generator that the options ask for has been validated. -/
theorem exists_layout_of_resolve {read : String → Except ReadFault String}
    {options : Options} {generator : Generator}
    (hresolve : resolve read options = .ok generator) :
    ∃ layout, generator.validate = .ok layout := by
  obtain ⟨base, -, hbase⟩ := exists_of_bind_eq_ok hresolve
  obtain ⟨layout, hlayout, hgenerator⟩ := exists_of_bind_eq_ok hbase
  obtain rfl := Except.ok.inj hgenerator
  generalize Generator.validate _ = validated at hlayout ⊢
  cases validated with
  | error cause => contradiction
  | ok layout => exact ⟨layout, rfl⟩

/-- The lines of the configurations come before the report. -/
theorem runProgram_withDebug {options : Options} {program : Program}
    (hfalse : options.debug = false) :
    ∃ shown,
      Shows program ((Machine.new program).run
        (options.maxSteps.getD defaultMaxSteps)).2.stepCount shown ∧
      runProgram options.withDebug program =
        ((runProgram options program).1, (runProgram options program).2.1,
          shown ++ (runProgram options program).2.2) := by
  obtain ⟨shown, hrun, hshows⟩ :=
    runShown_new program (options.maxSteps.getD defaultMaxSteps)
  refine ⟨shown, hshows, ?_⟩
  have hmaxSteps : options.withDebug.maxSteps = options.maxSteps := rfl
  have htrue : options.withDebug.debug = true := rfl
  simp [runProgram, hmaxSteps, htrue, hfalse, hrun]

/-- The check is the same, whatever has been printed before. -/
theorem runGenerator_withDebug {options : Options} (generator : Generator)
    (program : Program) (hfalse : options.debug = false) :
    ∃ shown,
      Shows program ((Machine.new program).run
        (options.maxSteps.getD defaultMaxSteps)).2.stepCount shown ∧
      runGenerator options.withDebug generator program =
        { runGenerator options generator program with
          output := shown ++
            (runGenerator options generator program).output } := by
  obtain ⟨shown, hshows, hrun⟩ := runProgram_withDebug hfalse
  refine ⟨shown, hshows, ?_⟩
  have hcheck : options.withDebug.check = options.check := rfl
  simp only [runGenerator, hrun, hcheck]
  split
  · split
    · rfl
    · split
      · simp [String.append_assoc]
      · rfl
  · rfl

/-- A run that shows its configurations ends as a plain one does, and shows
one configuration more than it applies rules.  So wherever the program gets as
far as running a generator, asking for the configurations only puts their lines
in front of what is printed; it makes no difference for how the program ends,
also if the run is checked. -/
theorem debug_only_adds_lines (read : String → Except ReadFault String) :
    (∀ (program : Program) (maxSteps : Nat),
      let plain := (Machine.new program).run maxSteps
      ∃ shown, runShown (.new program) maxSteps
            (configurationLine (.new program)) =
          (plain.1, plain.2, shown) ∧
        Shows program plain.2.stepCount shown) ∧
      ∀ arguments options generator,
        Options.ofArguments arguments = .ok options →
        options.debug = false → options.list = false →
        options.graph = false → resolve read options = .ok generator →
        (∀ name ∈ ["--debug", "-d"],
          Options.ofArguments (name :: arguments) = .ok options.withDebug) ∧
        ∃ program shown, generator.synthesize = .ok program ∧
          Shows program ((Machine.new program).run
            (options.maxSteps.getD defaultMaxSteps)).2.stepCount shown ∧
          ∀ arguments', Options.ofArguments arguments' =
              .ok options.withDebug →
            run read arguments' =
              { run read arguments with
                output := shown ++ (run read arguments).output } := by
  refine ⟨runShown_new, ?_⟩
  intro arguments options generator hread hfalse hlist hgraph hresolve
  refine ⟨fun name hname => ofArguments_cons_debug hname hread hfalse, ?_⟩
  obtain ⟨layout, hlayout⟩ := exists_layout_of_resolve hresolve
  obtain ⟨table, hsound⟩ := Synthesis.exists_sound generator layout
  obtain ⟨shown, hshows, hrun⟩ := runGenerator_withDebug generator
    (Synthesis.assemble generator layout table) hfalse
  refine ⟨_, shown, hsound.synthesize_eq hlayout, hshows, ?_⟩
  intro arguments' hread'
  have hresolve' : resolve read options.withDebug = .ok generator := hresolve
  have hlist' : options.withDebug.list = false := hlist
  have hgraph' : options.withDebug.graph = false := hgraph
  simp only [run, hread, hread', runOptions, hlist, hlist', hgraph, hgraph',
    hresolve, hresolve', hsound.synthesize_eq hlayout, hrun]
  rfl

/-- The configurations may be asked for last, and the run may be checked. -/
theorem debug_only_adds_lines_checked_run :
    Options.ofArguments ["-s", "10", "--check"] =
        .ok { seed := some "10", check := true } ∧
      ∃ program shown, (Generator.new "10" 1 2 1).synthesize = .ok program ∧
        Shows program
          ((Machine.new program).run defaultMaxSteps).2.stepCount shown ∧
        run (fun _ => .error .notFound) ["-s", "10", "--check", "-d"] =
          { run (fun _ => .error .notFound) ["-s", "10", "--check"] with
            output := shown ++
              (run (fun _ => .error .notFound)
                ["-s", "10", "--check"]).output } := by
  have hread : Options.ofArguments ["-s", "10", "--check"] =
      .ok { seed := some "10", check := true } := by decide +kernel
  obtain ⟨-, program, shown, hprogram, hshows, hrun⟩ :=
    (debug_only_adds_lines fun _ => .error .notFound).2 _ _
      (Generator.new "10" 1 2 1) hread rfl rfl rfl rfl
  exact ⟨hread, program, shown, hprogram, hshows, hrun _ (by decide +kernel)⟩

end XorOrbit.CommandLine
