import XorOrbit.Json.Fault

/-!
# JSON strings

Writing a text between quotes with the escapes that JSON asks for, and reading
it back.  Everything but quotes, backslashes and control characters is written
as it is.  Characters outside the basic plane may be read from two escapes, a
leading and a trailing surrogate.
-/

namespace XorOrbit.Json

/-- The hexadecimal digit with the given value. -/
def hexDigit (n : Nat) : Char := Nat.digitChar n

/-- A character as it is written within quotes. -/
def escapeChar (c : Char) : List Char :=
  if c = '"' ∨ c = '\\' then ['\\', c]
  else if c = '\n' then ['\\', 'n']
  else if c = '\r' then ['\\', 'r']
  else if c = '\t' then ['\\', 't']
  else if c = '\x08' then ['\\', 'b']
  else if c = '\x0c' then ['\\', 'f']
  else if c.toNat < 0x20 then
    ['\\', 'u', '0', '0', hexDigit (c.toNat / 16), hexDigit (c.toNat % 16)]
  else [c]

/-- A text between quotes. -/
def quote (text : String) : List Char :=
  '"' :: text.toList.flatMap escapeChar ++ ['"']

/-- The value of a hexadecimal digit. -/
def hexValue? (c : Char) : Option Nat :=
  if '0' ≤ c ∧ c ≤ '9' then some (c.toNat - '0'.toNat)
  else if 'a' ≤ c ∧ c ≤ 'f' then some (c.toNat - 'a'.toNat + 10)
  else if 'A' ≤ c ∧ c ≤ 'F' then some (c.toNat - 'A'.toNat + 10)
  else none

/-- Reads four hexadecimal digits.  Fewer than four bytes cannot hold them. -/
def scanHex (text : List Char) : Except Fault (Nat × List Char) :=
  match text.take 4 |>.mapM hexValue? with
  | some [a, b, c, d] =>
    .ok (((a * 16 + b) * 16 + c) * 16 + d, text.drop 4)
  | _ =>
    if (String.ofList (text.take 4)).utf8ByteSize < 4 then
      .error (.endOfText .string)
    else .error .invalidEscape

/-- The character that an escape letter stands for. -/
def simpleEscape? (letter : Char) : Option Char :=
  match letter with
  | '"' => some '"'
  | '\\' => some '\\'
  | '/' => some '/'
  | 'b' => some '\x08'
  | 'f' => some '\x0c'
  | 'n' => some '\n'
  | 'r' => some '\r'
  | 't' => some '\t'
  | _ => none

/-- Reads the trailing surrogate that has to follow a leading one. -/
def scanTrailing (leading : Nat) (text : List Char) :
    Except Fault (Char × List Char) :=
  match text with
  | [] | ['\\'] => .error (.endOfText .string)
  | '\\' :: 'u' :: rest => do
    let (trailing, rest) ← scanHex rest
    if 0xDC00 ≤ trailing ∧ trailing ≤ 0xDFFF then
      let code := 0x10000 + (leading - 0xD800) * 0x400 + (trailing - 0xDC00)
      return (Char.ofNat code, rest)
    else throw .loneSurrogate
  | _ => .error .endOfHexEscape

/-- Reads an escape by code point, whose `u` has been read. -/
def scanCode (text : List Char) : Except Fault (Char × List Char) := do
  let (code, rest) ← scanHex text
  if 0xDC00 ≤ code ∧ code ≤ 0xDFFF then throw .loneSurrogate
  else if 0xD800 ≤ code ∧ code ≤ 0xDBFF then scanTrailing code rest
  else return (Char.ofNat code, rest)

/-- Reads an escape, whose backslash has been read. -/
def scanEscape (text : List Char) : Except Fault (Char × List Char) :=
  match text with
  | [] => .error (.endOfText .string)
  | 'u' :: rest => scanCode rest
  | letter :: rest =>
    match simpleEscape? letter with
    | some c => .ok (c, rest)
    | none => .error .invalidEscape

/-- Reads a string up to its closing quote, given what has been read of it,
latest first.  Every round reads at least one character. -/
def scanStringFrom : Nat → List Char → List Char →
    Except Fault (String × List Char)
  | 0, _, _ | _, _, [] => .error (.endOfText .string)
  | _ + 1, passed, '"' :: rest => .ok (String.ofList passed.reverse, rest)
  | rounds + 1, passed, '\\' :: rest => do
    let (c, rest) ← scanEscape rest
    scanStringFrom rounds (c :: passed) rest
  | rounds + 1, passed, c :: rest =>
    if c.toNat < 0x20 then .error .controlCharacter
    else scanStringFrom rounds (c :: passed) rest

/-- Reads a string whose opening quote has been read. -/
def scanString (text : List Char) : Except Fault (String × List Char) :=
  scanStringFrom (text.length + 1) [] text

end XorOrbit.Json
