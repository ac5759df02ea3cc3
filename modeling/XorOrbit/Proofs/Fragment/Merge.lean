import Mathlib.Logic.Relation
import XorOrbit.Proofs.Fragment.Comprises

/-!
# Merging built fragments in place

Fragments that are built by calls are merged one by one into a fragment that is
changed in place.  This succeeds exactly if no fragment was given two rules for
one state and symbol and no two fragments were given rules for one state.  The
result then has exactly the rules given, whatever the order; a failure leaves
what the merges before it have made.
-/

namespace XorOrbit

namespace Fragment

/-! ## Building by calls -/

/-- A call that gives rules to a fragment. -/
inductive Call
  | rule (rule : Rule)
  | pass (state : String) (symbols : List Char) (direction : Direction)
  | cross (state : String) (symbols : List Char) (direction : Direction)
      (next : String)
  | mark (state : String) (direction : Direction) (next : Bool → String)
  | restore (state : String) (value : Restore) (direction : Direction)
      (next : String)
  | findMark (state : String) (symbols : List Char) (direction : Direction)
      (value : Restore) (turn : Direction) (next : String)
  | travel (state : String) (symbols : List Char) (direction : Direction)
      (target : Char) (turn : Direction) (next : String)

/-- The rules that the call gives, in their order. -/
def Call.rules : Call → List Rule
  | rule given => [given]
  | pass state symbols direction => Phrase.pass state symbols direction
  | cross state symbols direction next =>
    Phrase.cross state symbols direction next
  | mark state direction next => Phrase.mark state direction next
  | restore state value direction next =>
    Phrase.restore state value direction next
  | findMark state symbols direction value turn next =>
    Phrase.findMark state symbols direction value turn next
  | travel state symbols direction target turn next =>
    Phrase.travel state symbols direction target turn next

/-- The rules that the calls give, in their order. -/
def given (calls : List Call) : List Rule := calls.flatMap Call.rules

/-- Gives the rules of a call to the fragment. -/
def call (fragment : Fragment) (call : Call) : Fragment :=
  fragment.addAll call.rules

/-- The fragment that the calls make of the empty one. -/
def build (calls : List Call) : Fragment := calls.foldl call empty

/-- Calls one after the other give their rules one after the other. -/
theorem build_eq_ofRules (calls : List Call) :
    build calls = ofRules (given calls) := by
  rw [ofRules, addAll, given, List.foldl_flatMap]
  rfl

/-- Of the rules that the calls give, the fragment keeps the first ones. -/
theorem build_records (calls : List Call) :
    (build calls).Records (given calls) := by
  rw [build_eq_ofRules]
  exact records_ofRules (given calls)

/-! ## Merging in place -/

/-- Merges the other fragment into the current one.  Both checks come before the
only change. -/
def absorb (other : Fragment) : ExceptT Error (StateM Fragment) Unit := do
  let fragment ← get
  if let some state := fragment.conflict.or other.conflict then
    throw (.stateRedefined state)
  if let some state := other.sharedState? fragment then
    throw (.stateRedefined state)
  set { fragment with table := fragment.table.insertMany other.table.toList }

/-- What comes of merging the others into the fragment one by one, up to the
first failure. -/
def absorbed (fragment : Fragment) (others : List Fragment) :
    Except Error Unit × Fragment :=
  ((forM others absorb).run.run fragment).run

/-- Inserting the rows of a table one after the other unites the tables. -/
theorem insertMany_toList (first second : Table) :
    first.insertMany second.toList = first ∪ second := by
  apply Std.ExtTreeMap.ext_getElem?
  intro state
  rw [Std.ExtTreeMap.getElem?_union]
  cases hrow : second[state]? with
  | none =>
      rw [Option.none_or]
      apply Std.ExtTreeMap.getElem?_insertMany_list_of_contains_eq_false
      rw [Std.ExtTreeMap.map_fst_toList_eq_keys]
      simpa using hrow
  | some row =>
      exact Std.ExtTreeMap.getElem?_insertMany_list_of_mem
        Std.ReflCmp.compare_self Std.ExtTreeMap.distinct_keys_toList
        (Std.ExtTreeMap.mem_toList_iff_getElem?_eq_some.mpr hrow)

/-- Merging in place is `merge`, and changes nothing where that fails. -/
theorem run_absorb (fragment other : Fragment) :
    ((absorb other).run.run fragment).run =
      match fragment.merge other with
      | .ok merged => (.ok (), merged)
      | .error error => (.error error, fragment) := by
  have hget : (get : ExceptT Error (StateM Fragment) Fragment).run.run
      fragment = pure (.ok fragment, fragment) := rfl
  have hset (later : Fragment) :
      (set later : ExceptT Error (StateM Fragment) Unit).run.run fragment =
        pure (.ok (), later) := rfl
  rw [merge]
  cases hconflict : fragment.conflict.or other.conflict with
  | some state => simp [absorb, ExceptT.run_bind, hget, hconflict]
  | none =>
      cases hshared : other.sharedState? fragment with
      | some state =>
          simp [absorb, ExceptT.run_bind, hget, hconflict, hshared]
      | none =>
          simp [absorb, ExceptT.run_bind, hget, hset, hconflict, hshared,
            insertMany_toList]

/-- If a merge fails, it changes nothing and the others are not merged. -/
theorem absorbed_cons (fragment other : Fragment) (others : List Fragment) :
    fragment.absorbed (other :: others) =
      match fragment.merge other with
      | .ok merged => merged.absorbed others
      | .error error => (.error error, fragment) := by
  rw [absorbed, List.forM_cons, ExceptT.run_bind, StateT.run_bind,
    Id.run_bind, run_absorb]
  cases fragment.merge other <;> rfl

/-! ## Merging a list -/

/-- No state has rules in both lists. -/
def Separate (rules rules' : List Rule) : Prop :=
  ∀ rule ∈ rules, ∀ rule' ∈ rules', rule.state ≠ rule'.state

theorem Separate.symm {rules rules' : List Rule}
    (hseparate : Separate rules rules') : Separate rules' rules :=
  fun rule' hrule' rule hrule heq =>
    hseparate rule hrule rule' hrule' heq.symm

theorem separate_append_left {first second rules : List Rule} :
    Separate (first ++ second) rules ↔
      Separate first rules ∧ Separate second rules :=
  List.forall_mem_append

/-- No fragment is given two rules for one state and symbol, and no two
fragments are given rules for one state. -/
structure Mergeable (callss : List (List Call)) : Prop where
  single : ∀ calls ∈ callss, Single (given calls)
  separate : callss.Pairwise fun first second =>
    Separate (given first) (given second)

theorem mergeable_cons {calls : List Call} {callss : List (List Call)} :
    Mergeable (calls :: callss) ↔
      Single (given calls) ∧
        (∀ later ∈ callss, Separate (given calls) (given later)) ∧
        Mergeable callss := by
  constructor
  · rintro ⟨hsingle, hseparate⟩
    rw [List.forall_mem_cons] at hsingle
    rw [List.pairwise_cons] at hseparate
    exact ⟨hsingle.1, hseparate.1, hsingle.2, hseparate.2⟩
  · rintro ⟨hsingle, hseparate, hrest⟩
    exact ⟨List.forall_mem_cons.mpr ⟨hsingle, hrest.single⟩,
      List.pairwise_cons.mpr ⟨hseparate, hrest.separate⟩⟩

section List

variable {fragment : Fragment} {rules : List Rule}

/-- What merging one more built fragment comes to. -/
theorem Comprises.merge_build_cases (hrules : fragment.Comprises rules)
    (calls : List Call) :
    (∃ merged, fragment.merge (build calls) = .ok merged ∧
      merged.Comprises (rules ++ given calls) ∧
      Single (given calls) ∧ Separate rules (given calls)) ∨
    ∃ state, fragment.merge (build calls) = .error (.stateRedefined state) ∧
      (RepeatsFirst (given calls) state ∨
        state ∈ fragment.table ∧ state ∈ (build calls).table) := by
  have hrecords := build_records calls
  rcases merge_cases fragment (build calls) with
    ⟨state, herror, hreason⟩ | ⟨hmerged, -, hnone, hapart⟩
  · refine Or.inr ⟨state, herror, ?_⟩
    rw [hrules.conflict_eq, Option.none_or] at hreason
    exact hreason.imp_left (hrecords.repeatsFirst state)
  · have hsingle := hrecords.single hnone
    refine Or.inl ⟨_, hmerged, hrules.of_merge
      (hrecords.comprises hsingle) hmerged, hsingle, ?_⟩
    intro rule hrule rule' hrule' heq
    exact hapart rule'.state
      ((hrecords.mem_iff _).mpr ⟨rule', hrule', rfl⟩)
      ((hrules.mem_iff _).mpr ⟨rule, hrule, heq⟩)

/-- Merging built fragments one by one either succeeds, which shows that they
are mergeable, or stops at the first of them that has a repeated rule or a
state in common with those before it. -/
theorem Comprises.absorbed_cases (hrules : fragment.Comprises rules)
    (callss : List (List Call)) :
    (∃ merged, fragment.absorbed (callss.map build) = (.ok (), merged) ∧
      merged.Comprises (rules ++ callss.flatMap given) ∧
      Mergeable callss ∧ ∀ calls ∈ callss, Separate rules (given calls)) ∨
    ∃ before calls after reached state,
      callss = before ++ calls :: after ∧
      fragment.absorbed (before.map build) = (.ok (), reached) ∧
      reached.Comprises (rules ++ before.flatMap given) ∧
      fragment.absorbed (callss.map build) =
        (.error (.stateRedefined state), reached) ∧
      (RepeatsFirst (given calls) state ∨
        state ∈ reached.table ∧ state ∈ (build calls).table) := by
  -- The fragment that is merged into changes along the list, but it always
  -- comprises the rules that have been merged so far.
  induction callss generalizing fragment rules with
  | nil =>
      exact Or.inl ⟨fragment, rfl, by simpa using hrules,
        ⟨by simp, List.Pairwise.nil⟩, by simp⟩
  | cons calls callss ih =>
      have hstep (rest : List (List Call)) :=
        absorbed_cons fragment (build calls) (rest.map build)
      rcases hrules.merge_build_cases calls with
        ⟨next, hnext, hboth, hsingle, hseparate⟩ | ⟨state, herror, hreason⟩
      · simp only [hnext] at hstep
        rcases ih hboth with
          ⟨merged, hok, hcomprises, hmergeable, hrest⟩ |
          ⟨before, failing, after, reached, state, rfl, hbefore, hreached,
            herror, hreason⟩
        · simp only [separate_append_left, forall_and] at hrest
          exact Or.inl ⟨merged, (hstep callss).trans hok,
            by simpa using hcomprises,
            mergeable_cons.mpr ⟨hsingle, hrest.2, hmergeable⟩,
            List.forall_mem_cons.mpr ⟨hseparate, hrest.1⟩⟩
        · exact Or.inr ⟨calls :: before, failing, after, reached, state, rfl,
            (hstep before).trans hbefore, by simpa using hreached,
            (hstep _).trans herror, hreason⟩
      · simp only [herror] at hstep
        exact Or.inr ⟨[], calls, callss, fragment, state, rfl, rfl,
          by simpa using hrules, hstep callss, hreason⟩

end List

/-! ## What repeated rules lead to -/

/-- One call to the fragment, or one more fragment merged into it, whether that
succeeds or not. -/
inductive Changes (fragment : Fragment) : Fragment → Prop
  | call (call : Call) : Changes fragment (fragment.call call)
  | absorb (other : Fragment) : Changes fragment (fragment.absorbed [other]).2

theorem conflict_add {fragment : Fragment} {state : String}
    (hconflict : fragment.conflict = some state) (rule : Rule) :
    (fragment.add rule).conflict = some state := by
  rw [add]
  split <;> simp [hconflict]

theorem conflict_addAll {fragment : Fragment} {state : String}
    (hconflict : fragment.conflict = some state) (rules : List Rule) :
    (fragment.addAll rules).conflict = some state := by
  induction rules generalizing fragment with
  | nil => exact hconflict
  | cons rule rules ih => exact ih (conflict_add hconflict rule)

theorem absorbed_of_conflict {fragment other : Fragment} {state : String}
    (hconflict : fragment.conflict.or other.conflict = some state) :
    fragment.absorbed [other] = (.error (.stateRedefined state), fragment) := by
  rw [absorbed_cons, merge, hconflict]

theorem Changes.conflict_eq {fragment later : Fragment} {state : String}
    (hconflict : fragment.conflict = some state)
    (hchanges : fragment.Changes later) : later.conflict = some state := by
  cases hchanges with
  | call call => exact conflict_addAll hconflict call.rules
  | absorb other =>
      have hfailed : fragment.absorbed [other] =
          (.error (.stateRedefined state), fragment) :=
        absorbed_of_conflict (by rw [hconflict, Option.some_or])
      rw [hfailed]
      exact hconflict

/-- A conflict is never forgotten. -/
theorem conflict_of_changes {fragment later : Fragment} {state : String}
    (hconflict : fragment.conflict = some state)
    (hlater : Relation.ReflTransGen Changes fragment later) :
    later.conflict = some state := by
  induction hlater with
  | refl => exact hconflict
  | tail _ hchanges ih => exact hchanges.conflict_eq ih

/-! ## Merging into the empty fragment -/

/-- What comes of building fragments and merging them into the empty one. -/
def assembled (callss : List (List Call)) : Except Error Unit × Fragment :=
  empty.absorbed (callss.map build)

theorem assembled_cases (callss : List (List Call)) :
    (∃ merged, assembled callss = (.ok (), merged) ∧
      merged.Comprises (callss.flatMap given) ∧ Mergeable callss) ∨
    ∃ before calls after reached state,
      callss = before ++ calls :: after ∧
      assembled before = (.ok (), reached) ∧
      reached.Comprises (before.flatMap given) ∧
      assembled callss = (.error (.stateRedefined state), reached) ∧
      (RepeatsFirst (given calls) state ∨
        state ∈ reached.table ∧ state ∈ (build calls).table) := by
  have hcases := comprises_empty.absorbed_cases callss
  rw [List.nil_append] at hcases
  exact hcases.imp_left fun ⟨merged, hok, hcomprises, hmergeable, _⟩ =>
    ⟨merged, hok, hcomprises, hmergeable⟩

/-- A state that is already defined when a fragment that defines it comes up has
been given rules by an earlier fragment. -/
theorem not_mergeable_of_shared {before after : List (List Call)}
    {calls : List Call} {reached : Fragment} {state : String}
    (hreached : reached.Comprises (before.flatMap given))
    (hmem : state ∈ reached.table) (hother : state ∈ (build calls).table) :
    ¬ Mergeable (before ++ calls :: after) := by
  intro hmergeable
  obtain ⟨rule, hrule, rfl⟩ := (hreached.mem_iff state).mp hmem
  obtain ⟨rule', hrule', heq⟩ := ((build_records calls).mem_iff _).mp hother
  obtain ⟨earlier, hearlier, hrule⟩ := List.mem_flatMap.mp hrule
  have hseparate := (List.pairwise_append.mp hmergeable.separate).2.2
    earlier hearlier calls List.mem_cons_self
  exact hseparate rule hrule rule' hrule' heq.symm

theorem assembled_ok_iff {callss : List (List Call)} :
    (∃ merged, assembled callss = (.ok (), merged)) ↔ Mergeable callss := by
  rcases assembled_cases callss with
    ⟨merged, hok, -, hmergeable⟩ |
    ⟨before, calls, after, reached, state, rfl, -, hreached, herror, hreason⟩
  · exact ⟨fun _ => hmergeable, fun _ => ⟨merged, hok⟩⟩
  · refine iff_of_false (by simp [herror]) ?_
    rcases hreason with hrepeats | ⟨hmem, hother⟩
    · intro hmergeable
      exact hrepeats.not_single (hmergeable.single calls (by simp))
    · exact not_mergeable_of_shared hreached hmem hother

theorem assembled_comprises {callss : List (List Call)} {merged : Fragment}
    (hmerged : assembled callss = (.ok (), merged)) :
    merged.Comprises (callss.flatMap given) := by
  rcases assembled_cases callss with
    ⟨found, hok, hcomprises, -⟩ | ⟨_, _, _, _, _, -, -, -, herror, -⟩
  · obtain rfl : found = merged := by simpa using hok.symm.trans hmerged
    exact hcomprises
  · simp [herror] at hmerged

theorem Mergeable.perm {callss order : List (List Call)}
    (hmergeable : Mergeable callss) (horder : order.Perm callss) :
    Mergeable order where
  single := fun calls hcalls =>
    hmergeable.single calls (horder.mem_iff.mp hcalls)
  separate := hmergeable.separate.perm horder.symm Separate.symm

/-- The order of the fragments does not matter. -/
theorem assembled_perm {callss order : List (List Call)} {merged : Fragment}
    (hmerged : assembled callss = (.ok (), merged))
    (horder : order.Perm callss) : assembled order = (.ok (), merged) := by
  have hmergeable := assembled_ok_iff.mp ⟨merged, hmerged⟩
  obtain ⟨other, hother⟩ := assembled_ok_iff.mpr (hmergeable.perm horder)
  have hsame : other = merged :=
    (assembled_comprises hother).eq_of_mem_iff (assembled_comprises hmerged)
      fun rule => (horder.flatMap_right given).mem_iff
  rw [hother, hsame]

/-- Merging built fragments loses, duplicates and hides nothing.  It succeeds
exactly if the fragments are mergeable, and then the result has the rules of
all calls and no others, in whatever order the fragments are merged.  A failing
merge leaves the fragment as the merges before it have made it, and names a
state that was given two rules for one symbol or that both sides define.  A
fragment that was given two such rules fails all later merges on either side,
whatever is done to it in between. -/
theorem merging_keeps_exactly_the_rules (callss : List (List Call)) :
    ((∃ merged, assembled callss = (.ok (), merged)) ↔ Mergeable callss) ∧
    (∀ merged, assembled callss = (.ok (), merged) →
      merged.Comprises (callss.flatMap given) ∧
      ∀ order, order.Perm callss → assembled order = (.ok (), merged)) ∧
    (∀ error reached, assembled callss = (.error error, reached) →
      ∃ before calls after state,
        callss = before ++ calls :: after ∧
        assembled before = (.ok (), reached) ∧
        error = .stateRedefined state ∧
        (RepeatsFirst (given calls) state ∨
          state ∈ reached.table ∧ state ∈ (build calls).table)) ∧
    ∀ calls, ¬ Single (given calls) →
      ∃ state, RepeatsFirst (given calls) state ∧
        ∀ later, Relation.ReflTransGen Changes (build calls) later →
          ∀ other,
            later.absorbed [other] =
              (.error (.stateRedefined state), later) ∧
            other.absorbed [later] =
              (.error (.stateRedefined (other.conflict.getD state)),
                other) := by
  refine ⟨assembled_ok_iff, ?_, ?_, ?_⟩
  · intro merged hmerged
    exact ⟨assembled_comprises hmerged,
      fun order horder => assembled_perm hmerged horder⟩
  · intro error reached hfailed
    rcases assembled_cases callss with
      ⟨merged, hok, -⟩ |
      ⟨before, calls, after, found, state, hsplit, hbefore, -, herror,
        hreason⟩
    · simp [hok] at hfailed
    · obtain ⟨herror, rfl⟩ := Prod.mk.inj (herror.symm.trans hfailed)
      exact ⟨before, calls, after, state, hsplit, hbefore,
        (Except.error.inj herror).symm, hreason⟩
  · intro calls hrepeated
    have hrecords := build_records calls
    obtain ⟨state, hconflict⟩ := Option.ne_none_iff_exists'.mp
      (mt hrecords.single hrepeated)
    refine ⟨state, hrecords.repeatsFirst state hconflict, ?_⟩
    intro later hlater other
    have hkept := conflict_of_changes hconflict hlater
    refine ⟨absorbed_of_conflict (by rw [hkept, Option.some_or]),
      absorbed_of_conflict ?_⟩
    rw [hkept]
    cases other.conflict <;> rfl

end Fragment

end XorOrbit
