import XorOrbit.Json.Number
import XorOrbit.Json.Skip

/-!
# Reading JSON texts by expected type

A reader takes a value of one expected type off the front of a text.  Nothing is
built for values that are not wanted, and the first fault in the text is the
one that is reported: a value of the wrong kind is read only as far as is needed
to say what it is.
-/

namespace XorOrbit.Json

/-- Takes a value off the front of a text. -/
abbrev Reader (α : Type) := StateT (List Char) (Except Fault) α

namespace Reader

/-- The fault of a value that is not of the expected kind. -/
def wrongKind (expected : String) (text : List Char) : Fault :=
  let found (result : Except Fault Found) : Fault :=
    match result with
    | .ok value => .invalidType value expected
    | .error fault => fault
  match text with
  | [] => .endOfText .value
  | 'n' :: rest => found do
    let _ ← scanIdent ['u', 'l', 'l'] rest
    return .null
  | 't' :: rest => found do
    let _ ← scanIdent ['r', 'u', 'e'] rest
    return .boolean true
  | 'f' :: rest => found do
    let _ ← scanIdent ['a', 'l', 's', 'e'] rest
    return .boolean false
  | '"' :: rest => found do
    let (value, _) ← scanString rest
    return .string value
  | '[' :: _ => .invalidType .sequence expected
  | '\x7b' :: _ => .invalidType .map expected
  | c :: _ =>
    if c = '-' ∨ c.isDigit then found do
      let (number, _) ← scanNumber text
      return number.found
    else .expectedValue

/-- Reads a natural number of at most 64 bits. -/
def natural : Reader Nat := fun text =>
  let expected := "usize"
  match skipBlanks text with
  | [] => .error (.endOfText .value)
  | c :: rest =>
    if c = '-' ∨ c.isDigit then do
      match ← scanNumber (c :: rest) with
      | (.natural value, rest) => return (value, rest)
      | (.negative magnitude, _) =>
        throw (.invalidValue (Number.negative magnitude).found expected)
      | (number, _) => throw (.invalidType number.found expected)
    else .error (wrongKind expected (c :: rest))

/-- Reads a string, or fails as for a value of another kind. -/
def stringOr (expected : String) : Reader String := fun text =>
  match skipBlanks text with
  | '"' :: rest => scanString rest
  | text => .error (wrongKind expected text)

/-- Reads a string. -/
def string : Reader String := stringOr "a string"

/-- The only character of a string. -/
def onlyCharacter (text : String) : Except Fault Char :=
  match text.toList with
  | [c] => .ok c
  | _ => .error (.invalidValue (.string text) "a character")

/-- Reads a string of one character. -/
def character : Reader Char := do
  let text ← stringOr "a character"
  onlyCharacter text

/-- Reads a truth value. -/
def boolean : Reader Bool := fun text =>
  match skipBlanks text with
  | 't' :: rest => do return (true, ← scanIdent ['r', 'u', 'e'] rest)
  | 'f' :: rest => do return (false, ← scanIdent ['a', 'l', 's', 'e'] rest)
  | text => .error (wrongKind "a boolean" text)

/-- Reads the null value. -/
def null : Reader Unit := fun text =>
  match skipBlanks text with
  | 'n' :: rest => do return ((), ← scanIdent ['u', 'l', 'l'] rest)
  | text => .error (wrongKind "unit" text)

/-- Reads the opening bracket of a list. -/
def openList (expected : String) : Reader Unit := fun text =>
  match skipBlanks text with
  | '[' :: rest => .ok ((), rest)
  | text => .error (wrongKind expected text)

/-- Reads the opening brace of an object. -/
def openObject (expected : String) : Reader Unit := fun text =>
  match skipBlanks text with
  | '\x7b' :: rest => .ok ((), rest)
  | text => .error (wrongKind expected text)

/-- Whether another element follows; the comma before it is read, the closing
bracket is not. -/
def moreElements (first : Bool) : Reader Bool := fun text =>
  match skipBlanks text with
  | [] => .error (.endOfText .list)
  | ']' :: rest => .ok (false, ']' :: rest)
  | c :: rest =>
    if first then .ok (true, c :: rest)
    else if c = ',' then
      match skipBlanks rest with
      | [] => .error (.endOfText .value)
      | ']' :: _ => .error .trailingComma
      | rest => .ok (true, rest)
    else .error .expectedCommaOrBracket

/-- Reads the closing bracket of a list whose elements have all been read. -/
def closeList : Reader Unit := fun text =>
  match skipBlanks text with
  | [] => .error (.endOfText .list)
  | ']' :: rest => .ok ((), rest)
  | ',' :: rest =>
    match skipBlanks rest with
    | ']' :: _ => .error .trailingComma
    | _ => .error .trailingCharacters
  | _ => .error .trailingCharacters

/-- Whether another member follows; the comma before it and the quote of its
name are read, the closing brace is not. -/
def moreMembers (first : Bool) : Reader Bool := fun text =>
  match skipBlanks text with
  | [] => .error (.endOfText .object)
  | '\x7d' :: rest => .ok (false, '\x7d' :: rest)
  | c :: rest =>
    if first then
      if c = '"' then .ok (true, rest) else .error .keyNotString
    else if c = ',' then
      match skipBlanks rest with
      | [] => .error (.endOfText .value)
      | '"' :: rest => .ok (true, rest)
      | '\x7d' :: _ => .error .trailingComma
      | _ => .error .keyNotString
    else .error .expectedCommaOrBrace

/-- Reads the closing brace of an object whose members have all been read. -/
def closeObject : Reader Unit := fun text =>
  match skipBlanks text with
  | '\x7d' :: rest => .ok ((), rest)
  | _ => .error (.endOfText .object)

/-- Reads the colon between a name and its value. -/
def colon : Reader Unit := fun text =>
  match skipBlanks text with
  | [] => .error (.endOfText .object)
  | ':' :: rest => .ok ((), rest)
  | _ => .error .expectedColon

/-- Reads the quote before the name of the only member of an object, which must
not be empty. -/
def memberQuote : Reader Unit := fun text =>
  match skipBlanks text with
  | [] => .error (.endOfText .object)
  | '"' :: rest => .ok ((), rest)
  | '\x7d' :: _ => .error .expectedValue
  | _ => .error .keyNotString

/-- Skips a value. -/
def ignored : Reader Unit := fun text => do return ((), ← skipValue text)

/-- Reads elements up to the closing bracket, each of them into what has been
built so far.  Every round reads at least one character. -/
def elementsFrom (element : β → Reader β) : Nat → Bool → β → Reader β
  | 0, _, _ => throw (.endOfText .list)
  | rounds + 1, first, built => do
    if ← moreElements first then
      elementsFrom element rounds false (← element built)
    else return built

/-- Reads a list, each element into what has been built so far. -/
def fold (element : β → Reader β) (start : β) : Reader β := do
  openList "a sequence"
  let built ← elementsFrom element ((← get).length + 1) true start
  closeList
  return built

/-- Reads a list. -/
def list (element : Reader α) : Reader (List α) := do
  let reversed ← fold (fun passed => do return (← element) :: passed) []
  return reversed.reverse

/-- Reads members up to the closing brace, each of them into what has been
built so far.  Every round reads at least one character. -/
def membersFrom (member : String → β → Reader β) :
    Nat → Bool → β → Reader β
  | 0, _, _ => throw (.endOfText .object)
  | rounds + 1, first, built => do
    if ← moreMembers first then
      let name ← (scanString : Reader String)
      membersFrom member rounds false (← member name built)
    else return built

/-- Reads an object up to its closing brace, whose opening brace has been
read. -/
def members (member : String → β → Reader β) (start : β) : Reader β := do
  let built ← membersFrom member ((← get).length + 1) true start
  closeObject
  return built

/-- Reads an object as a map: `key` reads the name of a member and `insert`
adds it, so the last of several members with one name counts. -/
def map (key : String → Except Fault κ) (value : Reader α)
    (insert : β → κ → α → β) (start : β) : Reader β := do
  openObject "a map"
  members (fun name built => do
    let key ← key name
    colon
    return insert built key (← value)) start

/-- Reads one of a few names, given as a string or as an object with the name
as its only member and null as its value. -/
def choice (names : List String) (ofName? : String → Option α) : Reader α := do
  let chosen (name : String) : Except Fault α :=
    match ofName? name with
    | some value => .ok value
    | none => .error (.unknownVariant name names)
  match skipBlanks (← get) with
  | '"' :: rest =>
    set rest
    let name ← (scanString : Reader String)
    chosen name
  | '\x7b' :: rest =>
    set rest
    memberQuote
    let name ← (scanString : Reader String)
    let value ← chosen name
    colon
    null
    match skipBlanks (← get) with
    | '\x7d' :: rest =>
      set rest
      return value
    | [] => throw (.endOfText .object)
    | _ => throw .expectedValue
  | [] => throw (.endOfText .value)
  | _ => throw .expectedValue

/-- Reads a text that holds one value and nothing else. -/
def readText (reader : Reader α) (text : String) : Except Fault α := do
  let (value, rest) ← reader text.toList
  if (skipBlanks rest).isEmpty then return value
  else throw .trailingCharacters

end Reader

end XorOrbit.Json
