import XorOrbit.Json.Record
import XorOrbit.Json.Value
import XorOrbit.Machine

/-!
# Configurations and outcomes as JSON

For snapshots and outcomes the value they are written as, and how they are
read.
-/

namespace XorOrbit

open Json

/-- An outcome is written as its name. -/
def Outcome.toJson (outcome : Outcome) : Value := .string outcome.name

/-- Reads an outcome. -/
def Outcome.reader : Reader Outcome := .choice (all.map name) ofName?

namespace Snapshot

/-- A snapshot as an object. -/
def toJson (snapshot : Snapshot) : Value :=
  .object [
    ("state", .string snapshot.state),
    ("tape", .string snapshot.tape),
    ("head", .natural snapshot.head)]

/-- How a snapshot is read. -/
def shape : RecordShape Snapshot where
  name := "Configuration"
  blank := ⟨"", "", 0⟩
  fields := [
    { name := "state"
      fill := fun s => return { s with state := ← .string } },
    { name := "tape"
      fill := fun s => return { s with tape := ← .string } },
    { name := "head"
      fill := fun s => return { s with head := ← .natural } }]

end Snapshot

end XorOrbit
