import Mathlib.Data.List.Nodup
import XorOrbit.Fragment
import XorOrbit.Proofs.Program.Table

/-!
# What a fragment keeps of its rules

Of several rules for one state and symbol the first counts.  That there were
several is remembered by the state of the first one too many, and it is never
forgotten.
-/

namespace XorOrbit

namespace Fragment

/-- There is one rule at most for each state and symbol. -/
def Single (rules : List Rule) : Prop := (rules.map Rule.key).Nodup

/-- The state is the first that was given two rules for one symbol. -/
def RepeatsFirst (rules : List Rule) (state : String) : Prop :=
  ∃ before rule after, rules = before ++ rule :: after ∧
    Single before ∧ rule.key ∈ before.map Rule.key ∧ rule.state = state

theorem RepeatsFirst.append {rules : List Rule} {state : String}
    (hrepeats : RepeatsFirst rules state) (added : List Rule) :
    RepeatsFirst (rules ++ added) state := by
  obtain ⟨before, rule, after, rfl, hrule⟩ := hrepeats
  exact ⟨before, rule, after ++ added, by simp, hrule⟩

theorem RepeatsFirst.not_single {rules : List Rule} {state : String}
    (hrepeats : RepeatsFirst rules state) : ¬ Single rules := by
  obtain ⟨before, rule, after, rfl, -, hkey, -⟩ := hrepeats
  intro hsingle
  rw [Single, List.map_append, List.nodup_append'] at hsingle
  exact hsingle.2.2 hkey (by simp)

/-- What a fragment has kept of the rules that it was given. -/
structure Records (fragment : Fragment) (rules : List Rule) : Prop where
  /-- The first rule for a state and symbol is the one that applies. -/
  transition?_eq : ∀ state symbol,
    fragment.table.transition? state symbol =
      (rules.find? (·.key = (state, symbol))).map Rule.transition
  mem_iff : ∀ state,
    state ∈ fragment.table ↔ ∃ rule ∈ rules, rule.state = state
  single : fragment.conflict = none → Single rules
  repeatsFirst : ∀ state, fragment.conflict = some state →
    RepeatsFirst rules state

theorem records_empty : empty.Records [] where
  transition?_eq := by simp [empty, Table.transition?]
  mem_iff := by simp [empty]
  single := fun _ => List.nodup_nil
  repeatsFirst := by simp [empty]

variable {fragment : Fragment} {rules : List Rule}

/-- A rule is one too many if its state and symbol have been given one. -/
theorem Records.read_mem_row_iff (hrecords : fragment.Records rules)
    {rule : Rule} :
    rule.read ∈ fragment.table.getD rule.state (∅ : Row) ↔
      rule.key ∈ rules.map Rule.key := by
  rw [← Std.ExtTreeMap.isSome_getElem?_iff_mem,
    ← Table.transition?_eq_getElem?_getD, hrecords.transition?_eq]
  simp [Rule.key]

/-- A second rule for a state and symbol is not added; its state becomes the
conflict, if there is none yet. -/
theorem Records.add_of_mem (hrecords : fragment.Records rules) {rule : Rule}
    (hkey : rule.key ∈ rules.map Rule.key) :
    (fragment.add rule).Records (rules ++ [rule]) := by
  obtain ⟨old, hold, holdKey⟩ := List.mem_map.mp hkey
  have holdState : old.state = rule.state := congrArg Prod.fst holdKey
  rw [Fragment.add, if_pos (hrecords.read_mem_row_iff.mpr hkey)]
  refine ⟨?_, ?_, by simp, ?_⟩
  · intro state symbol
    rw [hrecords.transition?_eq, List.find?_append]
    by_cases hsame : rule.key = (state, symbol)
    · have hsome : (rules.find? (·.key = (state, symbol))).isSome := by
        rw [List.find?_isSome]
        exact ⟨old, hold, by simpa [holdKey] using hsame⟩
      rw [Option.or_of_isSome hsome]
    · simp [hsame]
  · intro state
    rw [hrecords.mem_iff]
    simp only [List.mem_append, List.mem_singleton]
    constructor
    · rintro ⟨found, hfound, hstate⟩
      exact ⟨found, Or.inl hfound, hstate⟩
    · rintro ⟨found, hfound | rfl, hstate⟩
      · exact ⟨found, hfound, hstate⟩
      · exact ⟨old, hold, holdState.trans hstate⟩
  · intro state hconflict
    cases hfirst : fragment.conflict with
    | none =>
        simp only [hfirst, Option.none_or, Option.some.injEq] at hconflict
        exact ⟨rules, rule, [], rfl, hrecords.single hfirst, hkey, hconflict⟩
    | some first =>
        simp only [hfirst, Option.some_or, Option.some.injEq] at hconflict
        exact hconflict ▸ (hrecords.repeatsFirst first hfirst).append _

/-- The first rule for a state and symbol is added. -/
theorem Records.add_of_notMem (hrecords : fragment.Records rules)
    {rule : Rule} (hkey : rule.key ∉ rules.map Rule.key) :
    (fragment.add rule).Records (rules ++ [rule]) := by
  rw [Fragment.add, if_neg (mt hrecords.read_mem_row_iff.mp hkey)]
  refine ⟨?_, ?_, ?_, ?_⟩
  · intro state symbol
    rw [Table.transition?_insert, hrecords.transition?_eq, List.find?_append]
    split
    · rename_i hsame
      have hfind : rules.find? (·.key = (state, symbol)) = none := by
        rw [List.find?_eq_none]
        intro old hold
        simpa [← hsame] using
          fun heq => hkey (List.mem_map.mpr ⟨old, hold, heq⟩)
      simp [hfind, hsame]
    · rename_i hother
      simp [hother]
  · intro state
    rw [Std.ExtTreeMap.mem_insert, Std.LawfulEqOrd.compare_eq_iff_eq,
      hrecords.mem_iff]
    simp [or_and_right, exists_or, or_comm]
  · intro hconflict
    rw [Single, List.map_append, List.nodup_append']
    exact ⟨hrecords.single hconflict, by simp, by simpa using hkey⟩
  · intro state hconflict
    exact (hrecords.repeatsFirst state hconflict).append _

theorem Records.add (hrecords : fragment.Records rules) (rule : Rule) :
    (fragment.add rule).Records (rules ++ [rule]) := by
  by_cases hkey : rule.key ∈ rules.map Rule.key
  · exact hrecords.add_of_mem hkey
  · exact hrecords.add_of_notMem hkey

theorem Records.addAll (hrecords : fragment.Records rules)
    (added : List Rule) :
    (fragment.addAll added).Records (rules ++ added) := by
  induction added generalizing fragment rules with
  | nil => simpa [Fragment.addAll] using hrecords
  | cons rule added ih =>
      have hrest := ih (hrecords.add rule)
      rwa [List.append_assoc] at hrest

theorem records_ofRules (rules : List Rule) : (ofRules rules).Records rules :=
  records_empty.addAll rules

/-- The second rule for a symbol is dropped, and the fragment knows it. -/
example :
    let fragment := ofRules
      [⟨"walk", '0', '0', .right, "walk"⟩, ⟨"walk", '0', '1', .left, "done"⟩]
    fragment.table.transition? "walk" '0' = some ⟨"walk", '0', .right⟩ ∧
      fragment.conflict = some "walk" := by
  decide +kernel

end Fragment

end XorOrbit
