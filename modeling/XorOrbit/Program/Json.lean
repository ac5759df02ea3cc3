import XorOrbit.Alphabet
import XorOrbit.Json.Record
import XorOrbit.Json.Value
import XorOrbit.Program

/-!
# Programs as JSON

For transitions and programs the value they are written as, and the shape by
which they are read.  Fields come in one order in both.
-/

namespace XorOrbit

open Json

/-- A direction is written as its name. -/
def Direction.toJson (direction : Direction) : Value := .string direction.name

/-- Reads a direction. -/
def Direction.reader : Reader Direction := .choice (all.map name) ofName?

namespace Transition

/-- A transition as an object. -/
def toJson (transition : Transition) : Value :=
  .object [
    ("next_state", .string transition.nextState),
    ("write", .character transition.write),
    ("direction", transition.direction.toJson)]

/-- How a transition is read. -/
def shape : RecordShape Transition where
  name := "Transition"
  blank := ⟨"", Symbol.blank, .stay⟩
  fields := [
    { name := "next_state"
      fill := fun t => return { t with nextState := ← .string } },
    { name := "write"
      fill := fun t => return { t with write := ← .character } },
    { name := "direction"
      fill := fun t => return { t with direction := ← Direction.reader } }]

end Transition

namespace TakenTransition

/-- A taken transition as an object. -/
def toJson (taken : TakenTransition) : Value :=
  .object [
    ("from", .string taken.source),
    ("read", .character taken.read),
    ("transition", taken.transition.toJson)]

/-- How a taken transition is read. -/
def shape : RecordShape TakenTransition where
  name := "TakenTransition"
  blank := ⟨"", Symbol.blank, Transition.shape.blank⟩
  fields := [
    { name := "from"
      fill := fun t => return { t with source := ← .string } },
    { name := "read"
      fill := fun t => return { t with read := ← .character } },
    { name := "transition"
      fill := fun t =>
        return { t with transition := ← Transition.shape.reader } }]

end TakenTransition

/-- A row as an object whose members are named by the symbols read. -/
def Row.toJson (row : Row) : Value :=
  .object (row.toList.map fun (symbol, transition) =>
    (String.singleton symbol, transition.toJson))

/-- Reads a row. -/
def Row.reader : Reader Row :=
  Reader.map Reader.onlyCharacter Transition.shape.reader
    (fun row symbol transition => row.insert symbol transition) ∅

/-- A table as an object whose members are named by the states. -/
def Table.toJson (table : Table) : Value :=
  .object (table.toList.map fun (state, row) => (state, Row.toJson row))

/-- Reads a table. -/
def Table.reader : Reader Table :=
  Reader.map .ok Row.reader (fun table state row => table.insert state row) ∅

namespace Program

/-- A program as an object. -/
def toJson (program : Program) : Value :=
  .object [
    ("name", .string program.name),
    ("initial_state", .string program.initialState),
    ("tape", .array (program.tape.map .character)),
    ("head", .natural program.head),
    ("blank", .character program.blank),
    ("accepting", .strings program.accepting.toList),
    ("rules", Table.toJson program.table)]

/-- How a program is read. -/
def shape : RecordShape Program where
  name := "Program"
  blank := ⟨"", "", [], 0, Symbol.blank, ∅, ∅⟩
  fields := [
    { name := "name"
      fill := fun p => return { p with name := ← .string } },
    { name := "initial_state"
      fill := fun p => return { p with initialState := ← .string } },
    { name := "tape"
      fill := fun p => return { p with tape := ← .list .character } },
    { name := "head"
      fill := fun p => return { p with head := ← .natural } },
    { name := "blank"
      fill := fun p => return { p with blank := ← .character } },
    { name := "accepting"
      fill := fun p => do
        let accepting ← Reader.fold
          (fun states => do return states.insert (← .string)) ∅
        return { p with accepting } },
    { name := "rules"
      fill := fun p => return { p with table := ← Table.reader } }]

end Program

end XorOrbit
