import XorOrbit.Proofs.Program.Analysis
import XorOrbit.Proofs.StateGraph.View

/-!
# Ids of edges

The id of an edge joins the names of its states with a dash.  Names may contain
dashes themselves, so an id can often be taken apart in several ways; it belongs
to two edges if the program has rules for two of them.
-/

namespace XorOrbit

/-- Edges between different states have different ids. -/
def StateGraph.IdsDiffer (graph : StateGraph) : Prop :=
  ∀ first ∈ graph.edges, ∀ second ∈ graph.edges,
    first.source ≠ second.source ∨ first.target ≠ second.target →
      first.id ≠ second.id

/-- Lists that are joined by an element can be told apart, unless the same
element occurs within one of them. -/
theorem append_cons_cases {α : Type} {left left' right right' : List α}
    {symbol : α} (heq : left ++ symbol :: right = left' ++ symbol :: right') :
    left = left' ∧ right = right' ∨
      (∃ middle, left' = left ++ symbol :: middle ∧
        right = middle ++ symbol :: right') ∨
      ∃ middle, left = left' ++ symbol :: middle ∧
        right' = middle ++ symbol :: right := by
  rcases List.append_eq_append_iff.mp heq with
    ⟨gap, hleft, hright⟩ | ⟨gap, hleft, hright⟩
  · cases gap with
    | nil => exact Or.inl ⟨by simpa using hleft.symm, by simpa using hright⟩
    | cons first middle =>
        rw [List.cons_append, List.cons.injEq] at hright
        obtain ⟨rfl, hright⟩ := hright
        exact Or.inr (Or.inl ⟨middle, hleft, hright⟩)
  · cases gap with
    | nil => exact Or.inl ⟨by simpa using hleft, by simpa using hright.symm⟩
    | cons first middle =>
        rw [List.cons_append, List.cons.injEq] at hright
        obtain ⟨rfl, hright⟩ := hright
        exact Or.inr (Or.inr ⟨middle, hleft, hright⟩)

theorem append_dash_cases {left left' right right' : String}
    (heq : left ++ "-" ++ right = left' ++ "-" ++ right') :
    left = left' ∧ right = right' ∨
      (∃ middle, left' = left ++ "-" ++ middle ∧
        right = middle ++ "-" ++ right') ∨
      ∃ middle, left = left' ++ "-" ++ middle ∧
        right' = middle ++ "-" ++ right := by
  have hchars : left.toList ++ '-' :: right.toList =
      left'.toList ++ '-' :: right'.toList := by
    simpa using congrArg String.toList heq
  rcases append_cons_cases hchars with
    ⟨hleft, hright⟩ | ⟨middle, hleft, hright⟩ | ⟨middle, hleft, hright⟩
  · exact Or.inl ⟨String.toList_inj.mp hleft, String.toList_inj.mp hright⟩
  · refine Or.inr (Or.inl ⟨String.ofList middle, ?_, ?_⟩)
    · simpa [← String.toList_inj] using hleft
    · simpa [← String.toList_inj] using hright
  · refine Or.inr (Or.inr ⟨String.ofList middle, ?_, ?_⟩)
    · simpa [← String.toList_inj] using hleft
    · simpa [← String.toList_inj] using hright

namespace Program

/-- An edge of the graph stands for the rules between two states. -/
theorem exists_edge_iff_leads {program : Program} {source target : String} :
    (∃ edge ∈ program.graph.edges, edge.source = source ∧
      edge.target = target) ↔ program.table.Leads source target := by
  constructor
  · rintro ⟨edge, hedge, rfl, rfl⟩
    obtain ⟨row, hrow, htarget, -⟩ := mem_edges_graph.mp hedge
    obtain ⟨read, transition, hread, hnext⟩ := Row.mem_targets.mp htarget
    exact ⟨read, transition,
      Table.transition?_eq_some_iff.mpr ⟨row, hrow, hread⟩, hnext⟩
  · rintro ⟨read, transition, hrule, rfl⟩
    let taken : TakenTransition := ⟨source, read, transition⟩
    have htaken : program.transition? taken.source taken.read =
        some taken.transition := hrule
    exact exists_edge_of_transition? htaken

theorem id_of_mem_edges_graph {program : Program} {edge : StateEdge}
    (hedge : edge ∈ program.graph.edges) :
    edge.id = edge.source ++ "-" ++ edge.target := by
  obtain ⟨row, -, -, hid, -⟩ := mem_edges_graph.mp hedge
  exact hid

/-- Ids clash exactly if there are rules from one state to another such that a
part of the second can be moved to the first and there are also rules between
the states that this makes. -/
theorem idsDiffer_graph_iff (program : Program) :
    program.graph.IdsDiffer ↔
      ¬ ∃ first middle last : String,
        program.table.Leads first (middle ++ "-" ++ last) ∧
          program.table.Leads (first ++ "-" ++ middle) last := by
  constructor
  · rintro hdiffer ⟨first, middle, last, hleft, hright⟩
    obtain ⟨edge, hedge, hsource, htarget⟩ :=
      exists_edge_iff_leads.mpr hleft
    obtain ⟨other, hother, hsource', htarget'⟩ :=
      exists_edge_iff_leads.mpr hright
    have hne : edge.source ≠ other.source := by
      rw [hsource, hsource']
      intro heq
      have hlength := congrArg String.length heq
      simp only [String.length_append] at hlength
      have hdash : "-".length = 1 := rfl
      omega
    apply hdiffer edge hedge other hother (Or.inl hne)
    rw [id_of_mem_edges_graph hedge, id_of_mem_edges_graph hother, hsource,
      htarget, hsource', htarget']
    simp only [String.append_assoc]
  · intro hnone first hfirst second hsecond hne hid
    rw [id_of_mem_edges_graph hfirst, id_of_mem_edges_graph hsecond] at hid
    have hleads := exists_edge_iff_leads.mp ⟨first, hfirst, rfl, rfl⟩
    have hleads' := exists_edge_iff_leads.mp ⟨second, hsecond, rfl, rfl⟩
    rcases append_dash_cases hid with
      ⟨hsource, htarget⟩ | ⟨middle, hsource, htarget⟩ |
        ⟨middle, hsource, htarget⟩
    · rcases hne with hne | hne
      · exact hne hsource
      · exact hne htarget
    · rw [htarget] at hleads
      rw [hsource] at hleads'
      exact hnone ⟨_, middle, _, hleads, hleads'⟩
    · rw [htarget] at hleads'
      rw [hsource] at hleads
      exact hnone ⟨_, middle, _, hleads', hleads⟩

/-- A program without defects that has rules from `a` to `b-c` and from `a-b` to
`c`. -/
def dashed : Program where
  name := "dashed"
  initialState := "a"
  tape := ['0']
  head := 0
  blank := '_'
  accepting := (∅ : Std.ExtTreeSet String).insertMany ["b-c", "c"]
  table := ((∅ : Table).insert "a"
      (((∅ : Row).insert '0' ⟨"b-c", '0', .stay⟩).insert
        '1' ⟨"a-b", '0', .stay⟩)).insert "a-b"
      ((∅ : Row).insert '0' ⟨"c", '0', .stay⟩)

/-- The analysis does not keep the ids of edges apart. -/
theorem dashed_ids_clash :
    dashed.defect? = none ∧ ¬ dashed.graph.IdsDiffer := by
  refine ⟨by decide +kernel, ?_⟩
  intro hdiffer
  have hfirst : ⟨"a-b-c", "a", "b-c", ["0/0,S"]⟩ ∈ dashed.graph.edges := by
    decide +kernel
  have hsecond : ⟨"a-b-c", "a-b", "c", ["0/0,S"]⟩ ∈ dashed.graph.edges := by
    decide +kernel
  exact hdiffer _ hfirst _ hsecond (Or.inl (by decide)) rfl

end Program

end XorOrbit
