import XorOrbit.Proofs.Fragment.Outline
import XorOrbit.Proofs.Fragment.Records

/-!
# Building fragments without conflicts

A fragment comprises a list of rules if it has no conflict and its table has
exactly these rules.  Adding rules and merging fragments keep this up as long
as no state is given two rules for a symbol and no two merged fragments define
a common state; an outline of the rules without a repeated state ensures both.
-/

namespace XorOrbit

namespace Fragment

/-- The fragment has no conflict, and its table has the given rules and no
others. -/
structure Comprises (fragment : Fragment) (rules : List Rule) : Prop where
  conflict_eq : fragment.conflict = none
  transition_iff : ∀ state symbol transition,
    fragment.table.transition? state symbol = some transition ↔
      ∃ rule ∈ rules, rule.key = (state, symbol) ∧
        rule.transition = transition
  mem_iff : ∀ state,
    state ∈ fragment.table ↔ ∃ rule ∈ rules, rule.state = state

theorem comprises_empty : empty.Comprises [] where
  conflict_eq := rfl
  transition_iff := by simp [empty, Table.transition?]
  mem_iff := by simp [empty]

/-- A fragment comprises the rules that it was given, if none was one too
many. -/
theorem Records.comprises {fragment : Fragment} {rules : List Rule}
    (hrecords : fragment.Records rules) (hsingle : Single rules) :
    fragment.Comprises rules where
  conflict_eq := by
    rw [Option.eq_none_iff_forall_ne_some]
    intro state hstate
    exact (hrecords.repeatsFirst state hstate).not_single hsingle
  transition_iff := by
    intro state symbol transition
    rw [hrecords.transition?_eq, Option.map_eq_some_iff]
    constructor
    · rintro ⟨rule, hrule, htransition⟩
      exact ⟨rule, List.mem_of_find?_eq_some hrule,
        by simpa using List.find?_some hrule, htransition⟩
    · rintro ⟨rule, hrule, hkey, htransition⟩
      have hfound : (rules.find? (·.key = (state, symbol))).isSome := by
        rw [List.find?_isSome]
        exact ⟨rule, hrule, by simpa using hkey⟩
      obtain ⟨first, hfirst⟩ := Option.isSome_iff_exists.mp hfound
      have hsame : first.key = rule.key := by
        rw [hkey]
        simpa using List.find?_some hfirst
      have heq := List.inj_on_of_nodup_map hsingle
        (List.mem_of_find?_eq_some hfirst) hrule hsame
      exact ⟨first, hfirst, heq ▸ htransition⟩
  mem_iff := hrecords.mem_iff

/-- Of single rules the first for a state and symbol is the only one. -/
theorem Comprises.records {fragment : Fragment} {rules : List Rule}
    (hrules : fragment.Comprises rules) (hsingle : Single rules) :
    fragment.Records rules where
  transition?_eq := by
    intro state symbol
    cases hfind : rules.find? (·.key = (state, symbol)) with
    | none =>
        rw [Option.map_none, Option.eq_none_iff_forall_ne_some]
        intro transition htransition
        obtain ⟨rule, hrule, hkey, -⟩ :=
          (hrules.transition_iff ..).mp htransition
        simpa [hkey] using List.find?_eq_none.mp hfind rule hrule
    | some rule =>
        rw [Option.map_some, hrules.transition_iff]
        exact ⟨rule, List.mem_of_find?_eq_some hfind,
          by simpa using List.find?_some hfind, rfl⟩
  mem_iff := hrules.mem_iff
  single := fun _ => hsingle
  repeatsFirst := by simp [hrules.conflict_eq]

theorem Comprises.addAll {fragment : Fragment} {rules added : List Rule}
    (hrules : fragment.Comprises rules)
    (hkeys : ((rules ++ added).map Rule.key).Nodup) :
    (fragment.addAll added).Comprises (rules ++ added) := by
  have hsingle : Single rules := by
    rw [List.map_append] at hkeys
    exact hkeys.of_append_left
  exact ((hrules.records hsingle).addAll added).comprises hkeys

/-- A fragment without conflict is determined by its rules, in any order. -/
theorem Comprises.eq_of_mem_iff {fragment fragment' : Fragment}
    {rules rules' : List Rule} (hrules : fragment.Comprises rules)
    (hrules' : fragment'.Comprises rules')
    (hsame : ∀ rule, rule ∈ rules ↔ rule ∈ rules') :
    fragment = fragment' := by
  have htable : fragment.table = fragment'.table := by
    apply Table.ext_transition?
    · intro state
      rw [hrules.mem_iff, hrules'.mem_iff]
      simp only [hsame]
    · intro state symbol
      apply Option.ext
      intro transition
      rw [hrules.transition_iff, hrules'.transition_iff]
      simp only [hsame]
  have hconflict : fragment.conflict = fragment'.conflict := by
    rw [hrules.conflict_eq, hrules'.conflict_eq]
  cases fragment
  cases fragment'
  simp only at htable hconflict
  rw [htable, hconflict]

/-! ## Merging -/

/-- What merging two fragments comes to: it fails with a state that is a
conflict of one of them or defined by both, or it unites their tables. -/
theorem merge_cases (fragment other : Fragment) :
    (∃ state, fragment.merge other = .error (.stateRedefined state) ∧
      (fragment.conflict.or other.conflict = some state ∨
        state ∈ fragment.table ∧ state ∈ other.table)) ∨
    fragment.merge other =
        .ok { fragment with table := fragment.table ∪ other.table } ∧
      fragment.conflict = none ∧ other.conflict = none ∧
        ∀ state ∈ other.table, state ∉ fragment.table := by
  rw [merge]
  cases hconflict : fragment.conflict.or other.conflict with
  | some state => exact Or.inl ⟨state, rfl, Or.inl rfl⟩
  | none =>
      cases hshared : other.sharedState? fragment with
      | some state =>
          have hother : state ∈ other.states :=
            List.mem_of_find?_eq_some hshared
          rw [states, Std.ExtTreeMap.mem_keys] at hother
          have hmem := List.find?_some hshared
          exact Or.inl ⟨state, rfl, Or.inr ⟨hmem, hother⟩⟩
      | none =>
          rw [sharedState?, List.find?_eq_none] at hshared
          rw [Option.or_eq_none_iff] at hconflict
          refine Or.inr ⟨rfl, hconflict.1, hconflict.2, ?_⟩
          intro state hstate
          rw [← Std.ExtTreeMap.mem_keys] at hstate
          exact hshared state hstate

section Merge

variable {fragment other merged : Fragment} {rules rules' : List Rule}
  (hrules : fragment.Comprises rules) (hrules' : other.Comprises rules')
include hrules hrules'

/-- A merge keeps the rules of both fragments. -/
theorem Comprises.of_merge (hmerged : fragment.merge other = .ok merged) :
    merged.Comprises (rules ++ rules') := by
  rcases merge_cases fragment other with
    ⟨state, herror, -⟩ | ⟨hunion, -, -, hapart⟩
  · rw [herror] at hmerged
    contradiction
  · obtain rfl := Except.ok.inj (hunion.symm.trans hmerged)
    refine ⟨hrules.conflict_eq, ?_, ?_⟩
    · intro state symbol transition
      rw [Table.transition?_union hapart, hrules.transition_iff,
        hrules'.transition_iff]
      simp [or_and_right, exists_or]
    · intro state
      rw [Std.ExtTreeMap.mem_union_iff, hrules.mem_iff, hrules'.mem_iff]
      simp [or_and_right, exists_or]

/-- Fragments that define no common state can be merged. -/
theorem Comprises.merge
    (hdisjoint : ∀ rule ∈ rules, ∀ rule' ∈ rules', rule.state ≠ rule'.state) :
    ∃ merged, fragment.merge other = .ok merged ∧
      merged.Comprises (rules ++ rules') := by
  rcases merge_cases fragment other with
    ⟨state, -, hconflict | ⟨hmem, hother⟩⟩ | ⟨hmerged, -⟩
  · simp [hrules.conflict_eq, hrules'.conflict_eq] at hconflict
  · obtain ⟨rule, hrule, rfl⟩ := (hrules.mem_iff state).mp hmem
    obtain ⟨rule', hrule', heq⟩ := (hrules'.mem_iff _).mp hother
    exact absurd heq.symm (hdisjoint rule hrule rule' hrule')
  · exact ⟨_, hmerged, hrules.of_merge hrules' hmerged⟩

end Merge

/-! ## Rules with an outline -/

section Outlines

variable {outline outline' : Outline} {rules rules' : List Rule}

theorem comprises_ofRules (hfits : outline.Fits rules)
    (hnodup : outline.states.Nodup) : (ofRules rules).Comprises rules :=
  (records_ofRules rules).comprises (hfits.nodup_keys hnodup)

theorem Comprises.addAll_of_fits {fragment : Fragment}
    (hrules : fragment.Comprises rules) (hfits : outline.Fits rules)
    (hfits' : outline'.Fits rules')
    (hnodup : (outline ++ outline').states.Nodup) :
    (fragment.addAll rules').Comprises (rules ++ rules') :=
  hrules.addAll ((hfits.append hfits').nodup_keys hnodup)

theorem Comprises.merge_of_fits {fragment other : Fragment}
    (hrules : fragment.Comprises rules) (hrules' : other.Comprises rules')
    (hfits : outline.Fits rules) (hfits' : outline'.Fits rules')
    (hdisjoint : outline.states.Disjoint outline'.states) :
    ∃ merged, fragment.merge other = .ok merged ∧
      merged.Comprises (rules ++ rules') := by
  apply hrules.merge hrules'
  intro rule hrule rule' hrule' heq
  exact hdisjoint (hfits.mem_states_iff.mpr ⟨rule, hrule, rfl⟩)
    (hfits'.mem_states_iff.mpr ⟨rule', hrule', heq.symm⟩)

end Outlines

end Fragment

end XorOrbit
