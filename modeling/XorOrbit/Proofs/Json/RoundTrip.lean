import XorOrbit.Generator.Json
import XorOrbit.Proofs.Json.Records
import XorOrbit.StateGraph.Json

/-!
# Reading records back

State graphs and generators are read back from the texts they are written to.
-/

namespace XorOrbit

open Json

theorem Json.Reader.Reads.readText {reader : Reader α} {value : Value}
    {result : α} (hreads : reader.Reads value result) {text : String}
    (htext : value.Spelled text.toList) :
    reader.readText text = .ok result := by
  have hread := hreads blank_nil htext ends_nil
  rw [List.append_nil, List.nil_append] at hread
  unfold Reader.readText
  rw [hread]
  rfl

/-! ### State graphs -/

/-- What is given for a node. -/
def StateNode.entries (node : StateNode) : List (Entry StateNode) := [
  ⟨"id", .string node.id, fun n => { n with id := node.id }⟩,
  ⟨"initial", .boolean node.initial,
    fun n => { n with initial := node.initial }⟩,
  ⟨"accepting", .boolean node.accepting,
    fun n => { n with accepting := node.accepting }⟩]

theorem StateNode.given (node : StateNode) :
    StateNode.shape.Given node.entries where
  nodup := by simp [entries]
  takes :=
    .cons ⟨rfl, fun _ => (Reader.reads_string _).map _⟩ <|
    .cons ⟨rfl, fun _ => (Reader.reads_boolean _).map _⟩ <|
    .cons ⟨rfl, fun _ => (Reader.reads_boolean _).map _⟩ .nil

theorem StateNode.reads (node : StateNode) :
    Reader.Reads StateNode.shape.reader node.toJson node :=
  node.given.reads

/-- What is given for an edge. -/
def StateEdge.entries (edge : StateEdge) : List (Entry StateEdge) := [
  ⟨"id", .string edge.id, fun e => { e with id := edge.id }⟩,
  ⟨"source", .string edge.source, fun e => { e with source := edge.source }⟩,
  ⟨"target", .string edge.target, fun e => { e with target := edge.target }⟩,
  ⟨"labels", .strings edge.labels, fun e => { e with labels := edge.labels }⟩]

theorem StateEdge.given (edge : StateEdge) :
    StateEdge.shape.Given edge.entries where
  nodup := by simp [entries]
  takes :=
    .cons ⟨rfl, fun _ => (Reader.reads_string _).map _⟩ <|
    .cons ⟨rfl, fun _ => (Reader.reads_string _).map _⟩ <|
    .cons ⟨rfl, fun _ => (Reader.reads_string _).map _⟩ <|
    .cons ⟨rfl, fun _ =>
      (Reader.reads_list fun label _ => Reader.reads_string label).map _⟩ .nil

theorem StateEdge.reads (edge : StateEdge) :
    Reader.Reads StateEdge.shape.reader edge.toJson edge :=
  edge.given.reads

/-- What is given for a graph. -/
def StateGraph.entries (graph : StateGraph) : List (Entry StateGraph) := [
  ⟨"nodes", .array (graph.nodes.map StateNode.toJson),
    fun g => { g with nodes := graph.nodes }⟩,
  ⟨"edges", .array (graph.edges.map StateEdge.toJson),
    fun g => { g with edges := graph.edges }⟩]

theorem StateGraph.given (graph : StateGraph) :
    StateGraph.shape.Given graph.entries where
  nodup := by simp [entries]
  takes :=
    .cons ⟨rfl, fun _ =>
      (Reader.reads_list fun node _ => node.reads).map _⟩ <|
    .cons ⟨rfl, fun _ =>
      (Reader.reads_list fun edge _ => edge.reads).map _⟩ .nil

theorem StateGraph.reads (graph : StateGraph) :
    Reader.Reads StateGraph.shape.reader graph.toJson graph :=
  graph.given.reads

/-! ### Generators -/

namespace Generator

/-- The amounts are numbers of at most 64 bits. -/
structure Amounts64 (generator : Generator) : Prop where
  a : generator.a < UInt64.size
  b : generator.b < UInt64.size
  c : generator.c < UInt64.size
  leftPadding : generator.leftPadding < UInt64.size
  historyReserve : generator.historyReserve < UInt64.size

/-- What is given for a generator if nothing is left out. -/
def entries (generator : Generator) : List (Entry Generator) := [
  ⟨"name", .string generator.name,
    fun g => { g with name := generator.name }⟩,
  ⟨"description", .string generator.description,
    fun g => { g with description := generator.description }⟩,
  ⟨"seed", .string generator.seed,
    fun g => { g with seed := generator.seed }⟩,
  ⟨"a", .natural generator.a, fun g => { g with a := generator.a }⟩,
  ⟨"b", .natural generator.b, fun g => { g with b := generator.b }⟩,
  ⟨"c", .natural generator.c, fun g => { g with c := generator.c }⟩,
  ⟨"left_padding", .natural generator.leftPadding,
    fun g => { g with leftPadding := generator.leftPadding }⟩,
  ⟨"history_reserve", .natural generator.historyReserve,
    fun g => { g with historyReserve := generator.historyReserve }⟩]

theorem given {generator : Generator} (hamounts : generator.Amounts64) :
    shape.Given generator.entries where
  nodup := by simp [entries]
  takes :=
    .cons ⟨rfl, fun _ => (Reader.reads_string _).map _⟩ <|
    .cons ⟨rfl, fun _ => (Reader.reads_string _).map _⟩ <|
    .cons ⟨rfl, fun _ => (Reader.reads_string _).map _⟩ <|
    .cons ⟨rfl, fun _ => (Reader.reads_natural hamounts.a).map _⟩ <|
    .cons ⟨rfl, fun _ => (Reader.reads_natural hamounts.b).map _⟩ <|
    .cons ⟨rfl, fun _ => (Reader.reads_natural hamounts.c).map _⟩ <|
    .cons ⟨rfl, fun _ =>
      (Reader.reads_natural hamounts.leftPadding).map _⟩ <|
    .cons ⟨rfl, fun _ =>
      (Reader.reads_natural hamounts.historyReserve).map _⟩ .nil

/-- All members of a generator, those with default values included. -/
def members (generator : Generator) : List (String × Value) :=
  generator.entries.map Entry.member

/-- The generator that is left of one when only some of its members are kept:
the defaults stand for the others. -/
def keeping (generator : Generator) (kept : String → Bool) : Generator :=
  { generator with
    name := if kept "name" then generator.name else "xorshift"
    description := if kept "description" then generator.description else ""
    leftPadding := if kept "left_padding" then generator.leftPadding else 10
    historyReserve :=
      if kept "history_reserve" then generator.historyReserve else 500 }

/-- The members that must be kept. -/
def requiredNames : List String := ["seed", "a", "b", "c"]

/-- A generator is read from those of its members that are kept. -/
theorem reads_kept {generator : Generator} (hamounts : generator.Amounts64)
    {kept : String → Bool} (hkept : ∀ name ∈ requiredNames, kept name) :
    Reader.Reads shape.reader
      (.object (generator.members.filter (kept ·.1)))
      (generator.keeping kept) := by
  have hrequired : ∀ field ∈ shape.fields, field.optional = false →
      kept field.name = true := by
    simpa [shape, requiredNames] using hkept
  have hfill : RecordShape.fill shape.blank
      (generator.entries.filter (kept ·.name)) = generator.keeping kept := by
    simp only [requiredNames, List.forall_mem_cons] at hkept
    obtain ⟨hseed, ha, hb, hc, -⟩ := hkept
    -- One case for each choice of optional members, so that the list that is
    -- filled in is a closed one.
    cases hname : kept "name" <;>
      cases hdescription : kept "description" <;>
      cases hleft : kept "left_padding" <;>
      cases hhistory : kept "history_reserve" <;>
      simp only [entries, keeping, List.filter_cons, List.filter_nil, hseed,
        ha, hb, hc, hname, hdescription, hleft, hhistory] <;> rfl
  exact hfill ▸ (given hamounts).reads_filter hrequired

/-- Whether the member with the given name is written: an empty description is
not. -/
def isWritten (generator : Generator) (name : String) : Bool :=
  !(name == "description" && generator.description.isEmpty)

theorem toJson_eq (generator : Generator) :
    generator.toJson =
      .object (generator.members.filter (generator.isWritten ·.1)) := by
  unfold toJson
  cases hempty : generator.description.isEmpty with
  | true => simp [members, entries, Entry.member, isWritten, hempty]
  | false => simp [members, entries, Entry.member, isWritten, hempty]

/-- What is not written is the default. -/
theorem keeping_isWritten (generator : Generator) :
    generator.keeping generator.isWritten = generator := by
  unfold keeping
  cases hempty : generator.description.isEmpty with
  | true =>
      have hdescription : generator.description = "" := by simpa using hempty
      simp [isWritten, hempty, ← hdescription]
  | false => simp [isWritten, hempty]

theorem reads {generator : Generator} (hamounts : generator.Amounts64) :
    Reader.Reads shape.reader generator.toJson generator := by
  have hkept : ∀ name ∈ requiredNames, generator.isWritten name = true := by
    simp [requiredNames, isWritten]
  have hreads := reads_kept hamounts hkept
  rw [keeping_isWritten] at hreads
  rw [toJson_eq]
  exact hreads

/-- Reading a generator and checking its seed are two steps. -/
theorem ofText_of_readText {text : String} {generator : Generator}
    (hread : shape.reader.readText text = .ok generator) :
    ofText text = generator.validate.map fun _ => generator := by
  cases hvalid : generator.validate with
  | error error => simp [ofText, hread, hvalid, Except.map, bind, Except.bind]
  | ok layout =>
      simp [ofText, hread, hvalid, Except.map, bind, Except.bind, pure,
        Except.pure]

end Generator

namespace Json

/-- The two texts of a value. -/
def Value.texts (value : Value) : List String := [value.text, value.prettyText]

theorem Value.spelled_of_mem_texts {value : Value} {text : String}
    (htext : text ∈ value.texts) : value.Spelled text.toList := by
  simp only [Value.texts, List.mem_cons, List.not_mem_nil, or_false] at htext
  rcases htext with rfl | rfl
  · simpa [Value.text] using value.spelled_compact
  · simpa [Value.prettyText] using value.spelled_indented 0

/-- Graphs and generators are read back from their texts, whatever characters
they hold.  Of a generator everything is written but an empty description, and
defaults stand for the members that a text leaves out; loading it fails exactly
as checking it does. -/
theorem records_read_back :
    (∀ graph : StateGraph,
      StateGraph.shape.reader.readText graph.text = .ok graph) ∧
    ∀ generator : Generator, generator.Amounts64 →
      (∀ text ∈ generator.toJson.texts,
        Generator.shape.reader.readText text = .ok generator ∧
          Generator.ofText text =
            generator.validate.map fun _ => generator) ∧
      generator.toJson =
        .object (generator.members.filter (generator.isWritten ·.1)) ∧
      ∀ kept : String → Bool,
        (∀ name ∈ Generator.requiredNames, kept name) →
          ∀ text ∈ (Value.object
              (generator.members.filter (kept ·.1))).texts,
            Generator.shape.reader.readText text =
              .ok (generator.keeping kept) := by
  refine ⟨fun graph => ?_, fun generator hamounts => ⟨?_, ?_, ?_⟩⟩
  · exact graph.reads.readText (Value.spelled_of_mem_texts (.tail _ (.head _)))
  · intro text htext
    have hread := (Generator.reads hamounts).readText
      (Value.spelled_of_mem_texts htext)
    exact ⟨hread, Generator.ofText_of_readText hread⟩
  · exact generator.toJson_eq
  · intro kept hkept text htext
    exact (Generator.reads_kept hamounts hkept).readText
      (Value.spelled_of_mem_texts htext)

/-- Quotes, line feeds and zero characters come back, and so does the largest
amount. -/
theorem records_read_back_escapes :
    let generator : Generator :=
      ⟨"\"\\\n\x00é", "", "1011", 1, 0, 18446744073709551615, 0, 500⟩
    generator.Amounts64 ∧
      Generator.ofText generator.toJson.text = .ok generator := by
  intro generator
  have hamounts : generator.Amounts64 := by constructor <;> decide
  refine ⟨hamounts, ?_⟩
  rw [((records_read_back.2 generator hamounts).1 _ (.head _)).2]
  decide +kernel

end Json

end XorOrbit
