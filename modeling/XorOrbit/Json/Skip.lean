import XorOrbit.Json.StringLiteral

/-!
# Skipping JSON values

Values of members that a record does not have are skipped.  They have to be
well formed, but less strictly than values that are read: surrogates need no
partner, and numbers may be of any size.  The brackets that are still open are
kept on a stack, so nesting is not limited.
-/

namespace XorOrbit.Json

/-- Whether the character may stand between the parts of a text. -/
def isBlank (c : Char) : Bool :=
  c == ' ' || c == '\n' || c == '\t' || c == '\r'

/-- The text from its first character that is not blank. -/
def skipBlanks (text : List Char) : List Char := text.dropWhile isBlank

/-- Reads the rest of a word, letter by letter. -/
def scanIdent (letters text : List Char) : Except Fault (List Char) :=
  match letters, text with
  | [], rest => .ok rest
  | _ :: _, [] => .error (.endOfText .value)
  | letter :: letters, c :: rest =>
    if c = letter then scanIdent letters rest else .error .expectedIdent

/-- Skips at least one digit. -/
def skipDigits (text : List Char) : Except Fault (List Char) :=
  let (digits, rest) := text.span Char.isDigit
  if digits.isEmpty then .error .invalidNumber else .ok rest

/-- Skips an exponent, if there is one. -/
def skipExponent (text : List Char) : Except Fault (List Char) :=
  match text with
  | c :: rest =>
    if c = 'e' ∨ c = 'E' then
      match rest with
      | sign :: digits =>
        skipDigits (if sign = '+' ∨ sign = '-' then digits else rest)
      | [] => .error .invalidNumber
    else .ok text
  | [] => .ok text

/-- Skips a fraction, if there is one, and an exponent, if there is one. -/
def skipFraction (text : List Char) : Except Fault (List Char) :=
  match text with
  | '.' :: rest => do skipExponent (← skipDigits rest)
  | _ => skipExponent text

/-- Skips a number whose sign has been read. -/
def skipMagnitude (text : List Char) : Except Fault (List Char) :=
  let (digits, rest) := text.span Char.isDigit
  match digits with
  | [] | '0' :: _ :: _ => .error .invalidNumber
  | _ => skipFraction rest

/-- Skips a string whose opening quote has been read.  Every round reads at
least one character. -/
def skipStringFrom : Nat → List Char → Except Fault (List Char)
  | 0, _ | _, [] => .error (.endOfText .string)
  | _ + 1, '"' :: rest => .ok rest
  | _ + 1, ['\\'] => .error (.endOfText .string)
  | rounds + 1, '\\' :: 'u' :: rest => do
    let (_, rest) ← scanHex rest
    skipStringFrom rounds rest
  | rounds + 1, '\\' :: letter :: rest =>
    if (simpleEscape? letter).isSome then skipStringFrom rounds rest
    else .error .invalidEscape
  | rounds + 1, c :: rest =>
    if c.toNat < 0x20 then .error .controlCharacter
    else skipStringFrom rounds rest

/-- Skips a string whose opening quote has been read. -/
def skipString (text : List Char) : Except Fault (List Char) :=
  skipStringFrom (text.length + 1) text

/-- A bracket that has not been closed yet. -/
inductive Bracket
  | list
  | object
deriving DecidableEq

/-- What the text inside the open brackets may go on with. -/
inductive Skipping
  /-- A value. -/
  | value
  /-- The first element or member, or the closing bracket. -/
  | opened
  /-- A comma or the closing bracket. -/
  | closed

/-- Skips the name of a member and its colon. -/
def skipKey (text : List Char) : Except Fault (List Char) :=
  match text with
  | [] => .error (.endOfText .object)
  | '"' :: rest => do
    match skipBlanks (← skipString rest) with
    | [] => .error (.endOfText .object)
    | ':' :: rest => .ok rest
    | _ :: _ => .error .expectedColon
  | _ :: _ => .error .keyNotString

/-- Goes on to the next element or member of the innermost bracket. -/
def skipToValue (bracket : Bracket) (text : List Char) :
    Except Fault (List Char) :=
  match bracket with
  | .list => .ok text
  | .object => skipKey (skipBlanks text)

/-- Skips one value that is not a list or an object, or tells which bracket
opens. -/
def skipScalar (text : List Char) :
    Except Fault (Option Bracket × List Char) :=
  match text with
  | [] => .error (.endOfText .value)
  | 'n' :: rest => do return (none, ← scanIdent ['u', 'l', 'l'] rest)
  | 't' :: rest => do return (none, ← scanIdent ['r', 'u', 'e'] rest)
  | 'f' :: rest => do return (none, ← scanIdent ['a', 'l', 's', 'e'] rest)
  | '"' :: rest => do return (none, ← skipString rest)
  | '[' :: rest => .ok (some .list, rest)
  | '\x7b' :: rest => .ok (some .object, rest)
  | '-' :: rest => do return (none, ← skipMagnitude rest)
  | c :: _ =>
    if c.isDigit then do return (none, ← skipMagnitude text)
    else .error .expectedValue

/-- The closing bracket. -/
def Bracket.close : Bracket → Char
  | list => ']'
  | object => '\x7d'

/-- The fault of a text that ends inside the bracket. -/
def Bracket.atEnd : Bracket → Fault
  | list => .endOfText .list
  | object => .endOfText .object

/-- The fault of a text that does not go on after an element. -/
def Bracket.noSeparator : Bracket → Fault
  | list => .expectedCommaOrBracket
  | object => .expectedCommaOrBrace

/-- Skips the rest of a value inside the given open brackets.  Two rounds read
at least one character. -/
def skipFrom : Nat → Skipping → List Bracket → List Char →
    Except Fault (List Char)
  | 0, _, _, _ => .error (.endOfText .value)
  | rounds + 1, .value, brackets, text => do
    match ← skipScalar (skipBlanks text) with
    | (none, rest) => skipFrom rounds .closed brackets rest
    | (some bracket, rest) => skipFrom rounds .opened (bracket :: brackets) rest
  | _ + 1, _, [], text => .ok text
  | rounds + 1, state, bracket :: outer, text =>
    match skipBlanks text with
    | [] => .error bracket.atEnd
    | c :: rest =>
      if c = bracket.close then skipFrom rounds .closed outer rest
      else
        match state with
        | .closed =>
          if c = ',' then do
            skipFrom rounds .value (bracket :: outer)
              (← skipToValue bracket rest)
          else .error bracket.noSeparator
        | _ => do
          skipFrom rounds .value (bracket :: outer)
            (← skipToValue bracket (c :: rest))

/-- Skips the value at the start of a text. -/
def skipValue (text : List Char) : Except Fault (List Char) :=
  skipFrom (2 * text.length + 2) .value [] text

end XorOrbit.Json
