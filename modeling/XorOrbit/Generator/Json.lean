import XorOrbit.Generator
import XorOrbit.Json.Record
import XorOrbit.Json.Value

/-!
# Generators as JSON

The form in which generators are kept in files.  Seed and shifts must be given;
all else has defaults, and an empty description is not written.
-/

namespace XorOrbit.Generator

open Json

/-- A generator as an object. -/
def toJson (generator : Generator) : Value :=
  let description :=
    if generator.description.isEmpty then []
    else [("description", Value.string generator.description)]
  .object (
    [("name", .string generator.name)] ++ description ++
    [("seed", .string generator.seed),
      ("a", .natural generator.a),
      ("b", .natural generator.b),
      ("c", .natural generator.c),
      ("left_padding", .natural generator.leftPadding),
      ("history_reserve", .natural generator.historyReserve)])

/-- How a generator is read. -/
def shape : RecordShape Generator where
  name := "XorShiftConfig"
  blank := .new "" 0 0 0
  fields := [
    { name := "name", optional := true
      fill := fun g => return { g with name := ← .string } },
    { name := "description", optional := true
      fill := fun g => return { g with description := ← .string } },
    { name := "seed"
      fill := fun g => return { g with seed := ← .string } },
    { name := "a"
      fill := fun g => return { g with a := ← .natural } },
    { name := "b"
      fill := fun g => return { g with b := ← .natural } },
    { name := "c"
      fill := fun g => return { g with c := ← .natural } },
    { name := "left_padding", optional := true
      fill := fun g => return { g with leftPadding := ← .natural } },
    { name := "history_reserve", optional := true
      fill := fun g => return { g with historyReserve := ← .natural } }]

/-- Reads a generator from a text and checks its seed. -/
def ofText (text : String) : Except Error Generator := do
  match shape.reader.readText text with
  | .error fault => throw (.malformed fault)
  | .ok generator =>
    let _ ← generator.validate
    return generator

end XorOrbit.Generator
