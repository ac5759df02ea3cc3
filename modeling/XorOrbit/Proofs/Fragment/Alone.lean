import XorOrbit.Proofs.Fragment.Comprises
import XorOrbit.Proofs.Run.Machine

/-!
# Fragments on their own

A fragment can be run without the program that it is made for: it starts in one
of its states on a given tape and accepts in its exits, the states that it
leaves for.  It has no rules for these, so a trace to an exit is the whole run,
and what holds along the trace holds throughout the run.
-/

namespace XorOrbit

/-- The program that runs a fragment until one of the exits. -/
def Fragment.program (fragment : Fragment) (start : String)
    (exits : List String) (cells : List Char) (head : Nat) : Program where
  name := "fragment"
  initialState := start
  tape := cells
  head
  blank := Symbol.blank
  accepting := Std.ExtTreeSet.ofList exits
  table := fragment.table

/-- The first accepting configuration that a run meets is the given one:
bounded runs accept there once the bound allows it, and before that they are
only cut off. -/
def Program.EndsIn (program : Program) (final : Configuration) : Prop :=
  ∃ count,
    (∀ bound < count, ((Machine.new program).run bound).1 = .exhausted) ∧
      ∀ bound, count ≤ bound →
        ((Machine.new program).run bound).1 = .accepted ∧
          ((Machine.new program).run bound).2.current = final

/-- Rules for the start state and the states of a namespace are not for the
other states around it. -/
theorem Namespace.Outside.state_notMem {ns : Namespace} {start : String}
    {exits : List String} {rows : List (Label × List Char)}
    {rules : List Rule} (houtside : ns.Outside (start :: exits))
    (hfits : (ns.outline start rows).Fits rules) :
    ∀ rule ∈ rules, rule.state ∉ exits := by
  intro rule hrule hexit
  have hstate := hfits.mem_states_iff.mpr ⟨rule, hrule, rfl⟩
  rcases Namespace.eq_or_owns_of_mem_states_outline hstate with heq | howns
  · exact (List.nodup_cons.mp houtside.nodup).1 (heq ▸ hexit)
  · exact houtside.not_owns _ (List.mem_cons_of_mem _ hexit) howns

namespace Fragment

theorem isAccepting_program (fragment : Fragment) (start : String)
    (exits : List String) (cells : List Char) (head : Nat) (state : String) :
    (fragment.program start exits cells head).isAccepting state = true ↔
      state ∈ exits := by
  rw [Program.isAccepting, program, Std.ExtTreeSet.contains_iff_mem,
    Std.ExtTreeSet.mem_ofList]
  simp

/-- The program starts with the head right of the cut. -/
theorem initial_program (fragment : Fragment) (start : String)
    (exits : List String) (left right : List Char) :
    Configuration.initial
        (fragment.program start exits (left ++ right) left.length) =
      ⟨start, .rightOf left right⟩ := by
  rw [← Tape.ofCells_append]
  rfl

namespace Comprises

variable {fragment : Fragment} {rules : List Rule}
  (hrules : fragment.Comprises rules) {start exit : String}
  {exits : List String} {cells : List Char} {head : Nat}
include hrules

/-- The program applies all rules of the fragment. -/
theorem follows_program :
    (fragment.program start exits cells head).Follows rules :=
  fun rule hrule =>
    (hrules.transition_iff ..).mpr ⟨rule, hrule, rfl, rfl⟩

variable (hexits : ∀ rule ∈ rules, rule.state ∉ exits)
include hexits

/-- No rule applies in an exit. -/
theorem transition?_exit (hexit : exit ∈ exits) (symbol : Char) :
    (fragment.program start exits cells head).transition? exit symbol =
      none := by
  rw [Option.eq_none_iff_forall_ne_some]
  intro transition htransition
  obtain ⟨rule, hrule, hkey, -⟩ :=
    (hrules.transition_iff ..).mp htransition
  have hstate : rule.state = exit := congrArg Prod.fst hkey
  exact hexits rule hrule (hstate ▸ hexit)

/-- A configuration that has a next one does not accept. -/
theorem isAccepting_of_next {current following : Configuration}
    (hnext : current.Next (fragment.program start exits cells head)
      following) :
    (fragment.program start exits cells head).isAccepting current.state =
      false := by
  rw [Bool.eq_false_iff, Ne, isAccepting_program]
  intro hexit
  obtain ⟨transition, htransition, -⟩ := hnext
  rw [Configuration.transition?,
    hrules.transition?_exit hexits hexit] at htransition
  contradiction

section Left

variable {via : String → List Char → Prop} {left right left' right' : List Char}
  (hexit : exit ∈ exits)
  (htrace : Trace
    (fragment.program start exits (left ++ right) left.length) via
    ⟨start, .rightOf left right⟩ ⟨exit, .rightOf left' right'⟩)
include hexit htrace

/-- A trace to an exit is the whole run. -/
theorem endsIn :
    (fragment.program start exits (left ++ right) left.length).EndsIn
      ⟨exit, .ofCells (left' ++ right') left'.length Symbol.blank⟩ := by
  obtain ⟨count, hcount⟩ := Machine.run_of_trace htrace
    ((isAccepting_program ..).mpr hexit)
    (fun _ _ hnext => hrules.isAccepting_of_next hexits hnext)
  rw [Tape.ofCells_append]
  exact ⟨count, hcount (Machine.new _) rfl (initial_program ..)⟩

/-- After any number of steps the machine is on the trace or has left. -/
theorem via_or_eq_after (steps : Nat) :
    let machine := (Machine.new
      (fragment.program start exits (left ++ right) left.length)).after steps
    via machine.state machine.tape.cells ∨
      machine.current = ⟨exit, .rightOf left' right'⟩ := by
  have hleads := Machine.leads_after (Machine.new
    (fragment.program start exits (left ++ right) left.length)) steps
  exact htrace.via_or_eq (hrules.transition?_exit hexits hexit _)
    (initial_program .. ▸ hleads)

end Left

end Comprises

end Fragment

end XorOrbit
