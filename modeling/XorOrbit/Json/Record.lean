import XorOrbit.Json.Reader

/-!
# Reading records

A record is given as an object with a member for each field, in any order, or
as a list of the values of its fields in their order.  Members that are no
fields are skipped, a field must not be given twice, and all fields but the
optional ones must be given.
-/

namespace XorOrbit.Json

/-- A field of a record: `fill` reads its value into the record. -/
structure Field (α : Type) where
  name : String
  fill : α → Reader α
  optional : Bool := false

/-- The fields of a record.  Reading starts from `blank`, whose optional fields
hold their defaults; its other fields are all overwritten. -/
structure RecordShape (α : Type) where
  name : String
  fields : List (Field α)
  blank : α

/-- A record of which some fields have been read. -/
structure Filling (α : Type) where
  record : α
  filled : List String

namespace RecordShape

/-- The first field that has neither been read nor may be left out. -/
def missing? (shape : RecordShape α) (filling : Filling α) :
    Option (Field α) :=
  shape.fields.find? fun field =>
    !field.optional && !filling.filled.contains field.name

/-- Reads the value of the field with the given name. -/
def member (shape : RecordShape α) (name : String) (filling : Filling α) :
    Reader (Filling α) := do
  match shape.fields.find? (·.name == name) with
  | none =>
    Reader.colon
    Reader.ignored
    return filling
  | some field =>
    if filling.filled.contains name then throw (.duplicateField name)
    Reader.colon
    return ⟨← field.fill filling.record, name :: filling.filled⟩

/-- Reads the values of the remaining fields of a list. -/
def elements (filling : Filling α) (first : Bool) :
    List (Field α) → Reader (Filling α)
  | [] => return filling
  | field :: fields => do
    if ← Reader.moreElements first then
      elements ⟨← field.fill filling.record, field.name :: filling.filled⟩
        false fields
    else return filling

/-- Reads a record from an object whose opening brace has been read. -/
def ofObject (shape : RecordShape α) : Reader α := do
  let filling ← Reader.membersFrom shape.member ((← get).length + 1) true
    ⟨shape.blank, []⟩
  match shape.missing? filling with
  | some field => throw (.missingField field.name)
  | none =>
    Reader.closeObject
    return filling.record

/-- Reads a record from a list whose opening bracket has been read. -/
def ofList (shape : RecordShape α) : Reader α := do
  let filling ← elements ⟨shape.blank, []⟩ true shape.fields
  match shape.missing? filling with
  | some field =>
    throw (.invalidLength (shape.fields.findIdx (·.name == field.name))
      shape.name shape.fields.length)
  | none =>
    Reader.closeList
    return filling.record

/-- Reads a record. -/
def reader (shape : RecordShape α) : Reader α := fun text =>
  match skipBlanks text with
  | '\x7b' :: rest => shape.ofObject rest
  | '[' :: rest => shape.ofList rest
  | text => .error (Reader.wrongKind ("struct " ++ shape.name) text)

end RecordShape

end XorOrbit.Json
