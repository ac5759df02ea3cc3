import XorOrbit.Json.Record
import XorOrbit.Json.Value
import XorOrbit.StateGraph

/-!
# State graphs as JSON

The text in which a graph is handed to a renderer, and how it is read back.
-/

namespace XorOrbit

open Json

namespace StateNode

/-- A node as an object. -/
def toJson (node : StateNode) : Value :=
  .object [
    ("id", .string node.id),
    ("initial", .boolean node.initial),
    ("accepting", .boolean node.accepting)]

/-- How a node is read. -/
def shape : RecordShape StateNode where
  name := "StateNode"
  blank := ⟨"", false, false⟩
  fields := [
    { name := "id"
      fill := fun n => return { n with id := ← .string } },
    { name := "initial"
      fill := fun n => return { n with initial := ← .boolean } },
    { name := "accepting"
      fill := fun n => return { n with accepting := ← .boolean } }]

end StateNode

namespace StateEdge

/-- An edge as an object. -/
def toJson (edge : StateEdge) : Value :=
  .object [
    ("id", .string edge.id),
    ("source", .string edge.source),
    ("target", .string edge.target),
    ("labels", .strings edge.labels)]

/-- How an edge is read. -/
def shape : RecordShape StateEdge where
  name := "StateEdge"
  blank := ⟨"", "", "", []⟩
  fields := [
    { name := "id"
      fill := fun e => return { e with id := ← .string } },
    { name := "source"
      fill := fun e => return { e with source := ← .string } },
    { name := "target"
      fill := fun e => return { e with target := ← .string } },
    { name := "labels"
      fill := fun e => return { e with labels := ← .list .string } }]

end StateEdge

namespace StateGraph

/-- A graph as an object. -/
def toJson (graph : StateGraph) : Value :=
  .object [
    ("nodes", .array (graph.nodes.map StateNode.toJson)),
    ("edges", .array (graph.edges.map StateEdge.toJson))]

/-- How a graph is read. -/
def shape : RecordShape StateGraph where
  name := "StateGraph"
  blank := ⟨[], []⟩
  fields := [
    { name := "nodes"
      fill := fun g => return { g with nodes := ← .list StateNode.shape.reader } },
    { name := "edges"
      fill := fun g =>
        return { g with edges := ← .list StateEdge.shape.reader } }]

/-- The graph as an indented text. -/
def text (graph : StateGraph) : String := graph.toJson.prettyText

end StateGraph

end XorOrbit
