import Mathlib.Algebra.BigOperators.Group.List.Lemmas
import Mathlib.Data.String.Basic
import XorOrbit.Proofs.Program.Table
import XorOrbit.Proofs.Run.Machine
import XorOrbit.StateGraph

/-!
# What a state graph shows

The graph of a program regroups its rules: those of one state stand on the edges
that leave it, each on the edge to its next state.  A label leaves out the next
state, which the edge gives back, and nothing else; so the program's rules can
be read off its graph.
-/

namespace XorOrbit

/-! ## Labels -/

theorem Direction.letter_injective : Function.Injective Direction.letter := by
  intro first second
  cases first <;> cases second <;> decide

/-- A label tells what a rule reads, what it writes and where it moves. -/
theorem Transition.label_eq_iff {first second : Transition}
    {read read' : Char} :
    first.label read = second.label read' ↔
      read = read' ∧ first.write = second.write ∧
        first.direction = second.direction := by
  simp [label, Direction.letter_injective.eq_iff]

/-! ## Rows -/

/-- A set of states is listed in code point order. -/
theorem pairwise_toList (states : Std.ExtTreeSet String) :
    states.toList.Pairwise (· < ·) := by
  refine Std.ExtTreeSet.ordered_toList.imp ?_
  intro first second hlt
  exact compareOfLessAndEq_eq_lt.mp hlt

namespace Row

/-- The rules of the row that lead to `target`, by the symbol read. -/
def rulesTo (row : Row) (target : String) : List (Char × Transition) :=
  row.toList.filter (·.2.nextState == target)

theorem labelsTo_eq_map (row : Row) (target : String) :
    labelsTo row target =
      (rulesTo row target).map fun rule => rule.2.label rule.1 := rfl

variable {row : Row} {target : String}

theorem mem_rulesTo {read : Char} {transition : Transition} :
    (read, transition) ∈ rulesTo row target ↔
      row[read]? = some transition ∧ transition.nextState = target := by
  rw [rulesTo, List.mem_filter,
    Std.ExtTreeMap.mem_toList_iff_getElem?_eq_some, beq_iff_eq]

theorem pairwise_rulesTo (row : Row) (target : String) :
    (rulesTo row target).Pairwise (·.1 < ·.1) := by
  have hrules : row.toList.Pairwise (·.1 < ·.1) := by
    refine Std.ExtTreeMap.ordered_keys_toList.imp ?_
    intro first second hlt
    exact compareOfLessAndEq_eq_lt.mp hlt
  exact hrules.filter _

theorem mem_labelsTo {label : String} :
    label ∈ labelsTo row target ↔
      ∃ (read : Char) (transition : Transition),
        row[read]? = some transition ∧ transition.nextState = target ∧
          transition.label read = label := by
  simp only [labelsTo_eq_map, List.mem_map, Prod.exists, mem_rulesTo,
    and_assoc]

/-- Together with its target a label gives back the rule. -/
theorem label_mem_labelsTo {read : Char} {transition : Transition} :
    transition.label read ∈ labelsTo row transition.nextState ↔
      row[read]? = some transition := by
  rw [mem_labelsTo]
  constructor
  · rintro ⟨read', transition', hrule, hnext, hlabel⟩
    obtain ⟨rfl, hwrite, hdirection⟩ := Transition.label_eq_iff.mp hlabel
    have hsame : transition' = transition := by
      cases transition'
      cases transition
      simp_all
    exact hsame ▸ hrule
  · intro hrule
    exact ⟨read, transition, hrule, rfl, rfl⟩

theorem mem_targets :
    target ∈ targets row ↔
      ∃ (read : Char) (transition : Transition),
        row[read]? = some transition ∧ transition.nextState = target := by
  simp [targets, Std.ExtTreeSet.mem_ofList]

theorem pairwise_targets (row : Row) : (targets row).Pairwise (· < ·) :=
  pairwise_toList _

/-- Every rule of the row is on exactly one of its edges. -/
theorem sum_length_labelsTo (row : Row) :
    ((targets row).map fun target => (labelsTo row target).length).sum =
      row.size := by
  let nexts := row.toList.map (·.2.nextState)
  have hlength : ∀ target,
      (labelsTo row target).length = nexts.count target := by
    intro target
    rw [labelsTo_eq_map, List.length_map, rulesTo,
      ← List.countP_eq_length_filter, List.count, List.countP_map]
    rfl
  have hperm : (targets row).Perm nexts.dedup := by
    have hnodup : (targets row).Nodup :=
      (pairwise_targets row).imp fun hlt => ne_of_lt hlt
    rw [List.perm_ext_iff_of_nodup hnodup nexts.nodup_dedup]
    intro target
    simp [mem_targets, nexts]
  simp only [hlength]
  rw [(hperm.map _).sum_eq, List.sum_map_count_dedup_eq_length,
    List.length_map, Std.ExtTreeMap.length_toList]

end Row

/-! ## Graphs of programs -/

namespace Program

variable {program : Program} {edge : StateEdge} {taken : TakenTransition}

theorem mem_edges_graph :
    edge ∈ program.graph.edges ↔
      ∃ row : Row, program.table[edge.source]? = some row ∧
        edge.target ∈ Row.targets row ∧
        edge.id = edge.source ++ "-" ++ edge.target ∧
        edge.labels = Row.labelsTo row edge.target := by
  simp only [graph, Row.edges, List.mem_flatMap, List.mem_map, Prod.exists,
    Std.ExtTreeMap.mem_toList_iff_getElem?_eq_some]
  constructor
  · rintro ⟨source, row, hrow, target, htarget, rfl⟩
    exact ⟨row, hrow, htarget, rfl, rfl⟩
  · rintro ⟨row, hrow, htarget, hid, hlabels⟩
    refine ⟨edge.source, row, hrow, edge.target, htarget, ?_⟩
    rw [← hid, ← hlabels]

/-- The states that it connects determine an edge. -/
theorem edge_eq_of_mem_edges_graph {other : StateEdge}
    (hedge : edge ∈ program.graph.edges)
    (hother : other ∈ program.graph.edges)
    (hsource : other.source = edge.source)
    (htarget : other.target = edge.target) : other = edge := by
  obtain ⟨row, hrow, -, hid, hlabels⟩ := mem_edges_graph.mp hedge
  obtain ⟨row', hrow', -, hid', hlabels'⟩ := mem_edges_graph.mp hother
  rw [hsource, hrow] at hrow'
  obtain rfl := Option.some.inj hrow'
  cases edge
  cases other
  simp_all

/-- Two states are connected if a rule leads from one to the other. -/
theorem exists_edge_of_transition?
    (hrule : program.transition? taken.source taken.read =
      some taken.transition) :
    ∃ edge ∈ program.graph.edges, edge.source = taken.source ∧
      edge.target = taken.transition.nextState := by
  obtain ⟨row, hrow, hread⟩ := Table.transition?_eq_some_iff.mp hrule
  let target := taken.transition.nextState
  refine ⟨⟨taken.source ++ "-" ++ target, taken.source, target,
    Row.labelsTo row target⟩, ?_, rfl, rfl⟩
  exact mem_edges_graph.mpr
    ⟨row, hrow, Row.mem_targets.mpr ⟨_, _, hread, rfl⟩, rfl, rfl⟩

/-- The edge between the states of a rule carries its label, and no other
rule puts that label there. -/
theorem label_mem_labels_iff (hedge : edge ∈ program.graph.edges)
    (hsource : edge.source = taken.source)
    (htarget : edge.target = taken.transition.nextState) :
    taken.transition.label taken.read ∈ edge.labels ↔
      program.transition? taken.source taken.read =
        some taken.transition := by
  obtain ⟨row, hrow, -, -, hlabels⟩ := mem_edges_graph.mp hedge
  rw [hsource] at hrow
  rw [hlabels, htarget, Row.label_mem_labelsTo, transition?,
    Table.transition?_eq_some_iff]
  simp [hrow]

theorem edgeFor?_graph_eq_some_iff :
    program.graph.edgeFor? taken = some edge ↔
      program.transition? taken.source taken.read = some taken.transition ∧
        edge ∈ program.graph.edges ∧ edge.source = taken.source ∧
        edge.target = taken.transition.nextState := by
  rw [StateGraph.edgeFor?]
  constructor
  · intro hfind
    have hedge := List.mem_of_find?_eq_some hfind
    have hmatch := List.find?_some hfind
    simp only [Bool.and_eq_true, beq_iff_eq, List.contains_iff_mem]
      at hmatch
    obtain ⟨⟨hsource, htarget⟩, hlabel⟩ := hmatch
    exact ⟨(label_mem_labels_iff hedge hsource htarget).mp hlabel, hedge,
      hsource, htarget⟩
  · rintro ⟨hrule, hedge, hsource, htarget⟩
    have hlabel := (label_mem_labels_iff hedge hsource htarget).mpr hrule
    cases hfind : program.graph.edges.find? _ with
    | none =>
        have hnone := List.find?_eq_none.mp hfind edge hedge
        simp [hsource, htarget] at hnone
        contradiction
    | some found =>
        have hfound := List.mem_of_find?_eq_some hfind
        have hmatch := List.find?_some hfind
        simp only [Bool.and_eq_true, beq_iff_eq] at hmatch
        rw [edge_eq_of_mem_edges_graph hedge hfound
          (hmatch.1.1.trans hsource.symm) (hmatch.1.2.trans htarget.symm)]

theorem exists_edgeFor?_graph_iff :
    (∃ edge, program.graph.edgeFor? taken = some edge) ↔
      program.transition? taken.source taken.read =
        some taken.transition := by
  constructor
  · rintro ⟨edge, hfind⟩
    exact (edgeFor?_graph_eq_some_iff.mp hfind).1
  · intro hrule
    obtain ⟨edge, hedge, hstates⟩ := exists_edge_of_transition? hrule
    exact ⟨edge, edgeFor?_graph_eq_some_iff.mpr ⟨hrule, hedge, hstates⟩⟩

theorem mem_graphStates {id : String} :
    id ∈ program.graphStates ↔
      id = program.initialState ∨ id ∈ program.table ∨
        ∃ state read transition,
          program.transition? state read = some transition ∧
            transition.nextState = id := by
  have hnext : id ∈ program.table.rules.map (·.next) ↔
      ∃ state read transition,
        program.transition? state read = some transition ∧
          transition.nextState = id := by
    rw [List.mem_map]
    constructor
    · rintro ⟨rule, hrule, rfl⟩
      exact ⟨_, _, _, Table.mem_rules.mp hrule, rfl⟩
    · rintro ⟨state, read, transition, hrule, rfl⟩
      exact ⟨⟨state, read, transition.write, transition.direction,
        transition.nextState⟩, Table.mem_rules.mpr hrule, rfl⟩
  rw [graphStates, Std.ExtTreeSet.mem_toList, Std.ExtTreeSet.mem_ofList,
    List.contains_iff_mem, List.mem_cons, List.mem_append,
    Std.ExtTreeMap.mem_keys, hnext]

theorem pairwise_graphStates (program : Program) :
    program.graphStates.Pairwise (· < ·) :=
  pairwise_toList _

theorem pairwise_edges_graph (program : Program) :
    program.graph.edges.Pairwise fun first second =>
      first.source < second.source ∨
        first.source = second.source ∧ first.target < second.target := by
  rw [graph, List.pairwise_flatMap]
  constructor
  · rintro ⟨source, row⟩ -
    refine List.pairwise_map.mpr ((Row.pairwise_targets row).imp ?_)
    intro first second hlt
    exact Or.inr ⟨rfl, hlt⟩
  · refine Std.ExtTreeMap.ordered_keys_toList.imp ?_
    rintro ⟨source, row⟩ ⟨source', row'⟩ hlt first hfirst second hsecond
    obtain ⟨target, -, rfl⟩ := List.mem_map.mp hfirst
    obtain ⟨target', -, rfl⟩ := List.mem_map.mp hsecond
    exact Or.inl (compareOfLessAndEq_eq_lt.mp hlt)

theorem sum_length_labels_graph (program : Program) :
    (program.graph.edges.map (·.labels.length)).sum =
      program.table.transitionCount := by
  rw [graph, List.map_flatMap, List.flatMap_def, List.sum_flatten,
    List.map_map, Table.transitionCount,
    Std.ExtTreeMap.foldl_eq_foldl_toList, ← List.foldl_map,
    ← List.sum_eq_foldl_nat]
  apply congrArg List.sum
  apply List.map_congr_left
  rintro ⟨source, row⟩ -
  change ((Row.edges row source).map (·.labels.length)).sum = row.size
  rw [Row.edges, List.map_map]
  exact Row.sum_length_labelsTo row

theorem mem_nodes_graph {node : StateNode} :
    node ∈ program.graph.nodes ↔
      node.id ∈ program.graphStates ∧
        node.initial = (node.id == program.initialState) ∧
        node.accepting = program.isAccepting node.id := by
  simp only [graph, List.mem_map]
  constructor
  · rintro ⟨id, hid, rfl⟩
    exact ⟨hid, rfl, rfl⟩
  · rintro ⟨hid, hinitial, haccepting⟩
    refine ⟨node.id, hid, ?_⟩
    rw [← hinitial, ← haccepting]

/-- The labels of an edge are those of the rules between its states, in the
order of the symbols read. -/
theorem exists_rules_of_mem_edges_graph
    (hedge : edge ∈ program.graph.edges) :
    ∃ rules : List (Char × Transition),
      edge.labels = rules.map (fun rule => rule.2.label rule.1) ∧
        rules.Pairwise (·.1 < ·.1) ∧
        ∀ read transition, (read, transition) ∈ rules ↔
          program.transition? edge.source read = some transition ∧
            transition.nextState = edge.target := by
  obtain ⟨row, hrow, -, -, hlabels⟩ := mem_edges_graph.mp hedge
  refine ⟨Row.rulesTo row edge.target, hlabels,
    Row.pairwise_rulesTo row edge.target, ?_⟩
  intro read transition
  rw [Row.mem_rulesTo, transition?, Table.transition?_eq_some_iff]
  simp [hrow]

end Program

/-! ## Faithful graphs -/

/-- The graph shows the rules of the program, each once, and its states. -/
structure StateGraph.Shows (graph : StateGraph) (program : Program) :
    Prop where
  /-- There is an edge for the rules of the program and for no others. -/
  edgeFor_iff : ∀ taken : TakenTransition,
    (∃ edge, graph.edgeFor? taken = some edge) ↔
      program.transition? taken.source taken.read = some taken.transition
  /-- The edge for a rule is the only one between the states of the rule. -/
  edgeFor_unique : ∀ taken edge, graph.edgeFor? taken = some edge →
    ∀ other, other = edge ↔ other ∈ graph.edges ∧
      other.source = taken.source ∧
        other.target = taken.transition.nextState
  node_iff : ∀ node : StateNode, node ∈ graph.nodes ↔
    (node.id = program.initialState ∨ node.id ∈ program.table ∨
      ∃ state read transition,
        program.transition? state read = some transition ∧
          transition.nextState = node.id) ∧
    node.initial = (node.id == program.initialState) ∧
    node.accepting = program.isAccepting node.id
  nodes_ordered : graph.nodes.Pairwise (·.id < ·.id)
  edges_ordered : graph.edges.Pairwise fun first second =>
    first.source < second.source ∨
      first.source = second.source ∧ first.target < second.target
  /-- The labels of an edge are those of the rules between its states, in the
  order of the symbols read. -/
  labels_ordered : ∀ edge ∈ graph.edges,
    ∃ rules : List (Char × Transition),
      edge.labels = rules.map (fun rule => rule.2.label rule.1) ∧
        rules.Pairwise (·.1 < ·.1) ∧
        ∀ read transition, (read, transition) ∈ rules ↔
          program.transition? edge.source read = some transition ∧
            transition.nextState = edge.target
  labels_count : (graph.edges.map (·.labels.length)).sum =
    program.table.transitionCount

/-- Applying a rule records it, and it leads to the current state. -/
theorem Machine.last_of_continued {machine : Machine}
    (hcontinued : machine.step.1 = .continued) :
    ∃ taken, machine.step.2.last = some taken ∧
      machine.program.transition? taken.source taken.read =
        some taken.transition ∧
      taken.transition.nextState = machine.step.2.state := by
  obtain ⟨transition, hrule⟩ :=
    exists_transition_of_continued hcontinued
  rw [step_eq_of_transition? hrule]
  exact ⟨_, rfl, hrule, rfl⟩

namespace Program

theorem shows_graph (program : Program) : program.graph.Shows program where
  edgeFor_iff := fun _ => exists_edgeFor?_graph_iff
  edgeFor_unique := by
    intro taken edge hfind other
    obtain ⟨-, hedge, hsource, htarget⟩ :=
      edgeFor?_graph_eq_some_iff.mp hfind
    constructor
    · rintro rfl
      exact ⟨hedge, hsource, htarget⟩
    · rintro ⟨hother, hsource', htarget'⟩
      exact edge_eq_of_mem_edges_graph hedge hother
        (hsource'.trans hsource.symm) (htarget'.trans htarget.symm)
  node_iff := by
    intro node
    rw [mem_nodes_graph, mem_graphStates]
  nodes_ordered := List.pairwise_map.mpr (pairwise_graphStates program)
  edges_ordered := pairwise_edges_graph program
  labels_ordered := fun _ => exists_rules_of_mem_edges_graph
  labels_count := sum_length_labels_graph program

/-- The graph of a program is a faithful view of its rules: programs with equal
graphs have equal rules, and after every step by a rule there is an edge for
it, which leads to the current state. -/
theorem graph_shows_rules (program : Program) :
    program.graph.Shows program ∧
    (∀ other : Program, other.graph = program.graph →
      ∀ state symbol, other.transition? state symbol =
        program.transition? state symbol) ∧
    ∀ machine : Machine, machine.program = program →
      machine.step.1 = .continued →
        ∃ taken edge, machine.step.2.last = some taken ∧
          program.graph.edgeFor? taken = some edge ∧
          edge.target = machine.step.2.state := by
  refine ⟨shows_graph program, ?_, ?_⟩
  · intro other hgraph state symbol
    apply Option.ext
    intro transition
    let taken : TakenTransition := ⟨state, symbol, transition⟩
    have hother : (∃ edge, program.graph.edgeFor? taken = some edge) ↔
        other.transition? state symbol = some transition := by
      rw [← hgraph]
      exact exists_edgeFor?_graph_iff
    exact hother.symm.trans exists_edgeFor?_graph_iff
  · rintro machine rfl hcontinued
    obtain ⟨taken, hlast, hrule, hnext⟩ :=
      Machine.last_of_continued hcontinued
    obtain ⟨edge, hfind⟩ := exists_edgeFor?_graph_iff.mpr hrule
    obtain ⟨-, -, -, htarget⟩ := edgeFor?_graph_eq_some_iff.mp hfind
    exact ⟨taken, edge, hlast, hfind, htarget.trans hnext⟩

/-- Separators among the symbols and the states do not mix up rules. -/
example :
    let program : Program :=
      { name := "separators", initialState := "a", tape := ['/'], head := 0
        blank := '_', accepting := ∅
        table := (∅ : Table).insert "a"
          (((∅ : Row).insert '/' ⟨"a/b", ',', .left⟩).insert
            ',' ⟨"a/b", '/', .right⟩) }
    program.graph.edges.map (·.labels) = [[",//,R", "//,,L"]] ∧
      program.graph.edgeFor? ⟨"a", '/', ⟨"a/b", ',', .right⟩⟩ = none := by
  decide +kernel

end Program

end XorOrbit
