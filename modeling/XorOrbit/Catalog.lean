import XorOrbit.Generator.Json
import XorOrbit.Synthesis.Pipeline

/-!
# The catalog of presets

Generators that are ready to use, kept as the documents from which they are
read.  Lookup by name ignores the case of the letters A to Z.
-/

namespace XorOrbit.Catalog

open Json in
/-- The document of a preset. -/
def document (name description seed : String) (a b c : Nat) : Value :=
  .object [
    ("name", .string name),
    ("description", .string description),
    ("seed", .string seed),
    ("a", .natural a),
    ("b", .natural b),
    ("c", .natural c)]

/-- The documents of all presets. -/
def documents : List Json.Value := [
  document "Classic 6-bit"
    ("The textbook example: seed 110010 with shifts (1, 2, 1) " ++
      "repeats after seven iterations.")
    "110010" 1 2 1,
  document "Nibble" "A 4-bit word with unit shifts." "1011" 1 1 1,
  document "Zero Seed"
    "The all-zero word is a fixed point of every xorshift step."
    "000000" 1 2 1,
  document "Mixed Shifts" "A 4-bit word with three different shift amounts."
    "0110" 2 1 3]

/-- The texts of all presets, each of which ends with a line break. -/
def texts : List String := documents.map (·.prettyText ++ "\n")

/-- The presets.  A text that could not be read would be left out. -/
def presets : List Generator :=
  texts.filterMap fun text => (Generator.ofText text).toOption

/-- The number of presets. -/
def size : Nat := presets.length

/-- The names of the presets. -/
def names : List String := presets.map (·.name)

/-- The preset with the given index. -/
def preset (index : Nat) : Except Error Generator :=
  match presets[index]? with
  | some generator => .ok generator
  | none => .error (.noPreset (.noIndex index))

/-- The preset with the given name. -/
def presetNamed (name : String) : Except Error Generator :=
  match presets.find? (·.name.toLower == name.toLower) with
  | some generator => .ok generator
  | none => .error (.noPreset (.noName name))

/-- The text of the preset with the given index. -/
def text (index : Nat) : Except Error String :=
  match texts[index]? with
  | some text => .ok text
  | none => .error (.noPreset (.noText index))

/-- The lower case of a character as far as it can matter for a search in
texts of ASCII characters: besides the letters A to Z, only the Kelvin sign has
an ASCII lower case. -/
def lower (c : Char) : Char := if c = '\u212a' then 'k' else c.toLower

/-- Whether the query occurs in the text. -/
def occurs (query : List Char) : List Char → Bool
  | [] => query.isEmpty
  | c :: text => query.isPrefixOf (c :: text) || occurs query text

/-- Whether the query occurs in the text when case is ignored. -/
def matchesText (query text : String) : Bool :=
  occurs (query.toList.map lower) (text.toList.map lower)

/-- The indices of the presets in whose name or description the query
occurs. -/
def search (query : String) : List Nat :=
  (presets.zipIdx.filter fun (generator, _) =>
    matchesText query generator.name ||
      matchesText query generator.description).map (·.2)

/-- A preset with the size of its program. -/
structure Entry where
  index : Nat
  generator : Generator
  stateCount : Nat
  transitionCount : Nat

/-- The preset with the given index and the size of its program. -/
def entry (index : Nat) : Except Error Entry := do
  let generator ← preset index
  let program ← generator.synthesize
  return {
    index
    generator
    stateCount := program.table.size
    transitionCount := program.table.transitionCount }

end XorOrbit.Catalog
