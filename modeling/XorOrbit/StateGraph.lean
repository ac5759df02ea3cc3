import XorOrbit.Program

/-!
# State graphs

A program seen as a graph that can be drawn: states are nodes, and all rules
between two states share one edge that carries a label for each of them.  Nodes
and edges come in code point order.
-/

namespace XorOrbit

/-- A state of the graph. -/
structure StateNode where
  id : String
  initial : Bool
  accepting : Bool
deriving DecidableEq

/-- All rules that lead from `source` to `target`, with one label each in the
order of the symbols read. -/
structure StateEdge where
  id : String
  source : String
  target : String
  labels : List String
deriving DecidableEq

/-- The nodes and edges of a program. -/
structure StateGraph where
  nodes : List StateNode
  edges : List StateEdge
deriving DecidableEq

/-- The label of a rule: `read/write,D`. -/
def Transition.label (transition : Transition) (read : Char) : String :=
  String.ofList
    [read, '/', transition.write, ',', transition.direction.letter]

/-- All labels of an edge, one a line. -/
def StateEdge.label (edge : StateEdge) : String := "\n".intercalate edge.labels

namespace StateGraph

/-- The node with the given id. -/
def node? (graph : StateGraph) (id : String) : Option StateNode :=
  graph.nodes.find? (·.id == id)

/-- The edge that holds the rule of a taken transition. -/
def edgeFor? (graph : StateGraph) (taken : TakenTransition) :
    Option StateEdge :=
  let label := taken.transition.label taken.read
  graph.edges.find? fun edge =>
    edge.source == taken.source &&
      edge.target == taken.transition.nextState && edge.labels.contains label

end StateGraph

namespace Row

/-- The states that the rules of the row lead to, in code point order. -/
def targets (row : Row) : List String :=
  (Std.ExtTreeSet.ofList (row.toList.map (·.2.nextState))).toList

/-- The labels of the rules that lead to `target`. -/
def labelsTo (row : Row) (target : String) : List String :=
  (row.toList.filter (·.2.nextState == target)).map
    fun (read, transition) => transition.label read

/-- The edges that leave `source`, whose row this is. -/
def edges (row : Row) (source : String) : List StateEdge :=
  (targets row).map fun target =>
    { id := source ++ "-" ++ target, source, target
      labels := labelsTo row target }

end Row

namespace Program

/-- The states that have rules, those that rules lead to, and the initial
one. -/
def graphStates (program : Program) : List String :=
  (Std.ExtTreeSet.ofList (program.initialState ::
    (program.table.keys ++ program.table.rules.map (·.next)))).toList

/-- The graph of the program. -/
def graph (program : Program) : StateGraph where
  nodes := program.graphStates.map fun id =>
    { id, initial := id == program.initialState
      accepting := program.isAccepting id }
  edges := program.table.toList.flatMap fun (source, row) =>
    Row.edges row source

end Program

end XorOrbit
