import XorOrbit.Text.Quoted

/-!
# Faults in JSON texts

Why a text could not be read as a value of the expected type.  Reading goes
from left to right, so the fault is always the first one in the text.
-/

namespace XorOrbit.Json

/-- What was being read when the text ended. -/
inductive Unfinished
  | value
  | list
  | object
  | string
deriving DecidableEq

/-- A value of the wrong kind, as it is shown in a message. -/
inductive Found
  | null
  | boolean (value : Bool)
  | integer (value : Int)
  | floating (text : String)
  | string (value : String)
  | sequence
  | map
deriving DecidableEq

/-- Everything that can be wrong with a text. -/
inductive Fault
  | endOfText (within : Unfinished)
  | expectedValue
  | expectedIdent
  | expectedColon
  | expectedCommaOrBracket
  | expectedCommaOrBrace
  | trailingComma
  | trailingCharacters
  | keyNotString
  | invalidNumber
  | numberOutOfRange
  | invalidEscape
  | endOfHexEscape
  | loneSurrogate
  | controlCharacter
  | invalidType (found : Found) (expected : String)
  | invalidValue (found : Found) (expected : String)
  | invalidLength (length : Nat) (record : String) (fields : Nat)
  | missingField (name : String)
  | duplicateField (name : String)
  | unknownVariant (name : String) (variants : List String)
deriving DecidableEq

/-- The word for the part of the text that is missing. -/
def Unfinished.message : Unfinished → String
  | value => "a value"
  | list => "a list"
  | object => "an object"
  | string => "a string"

/-- A name between backquotes. -/
def backquoted (name : String) : String := "`" ++ name ++ "`"

/-- The value in words. -/
def Found.message : Found → String
  | null => "null"
  | boolean value => "boolean " ++ backquoted (if value then "true" else "false")
  | integer value => "integer " ++ backquoted (toString value)
  | floating text => "floating point " ++ backquoted text
  | string value => "string " ++ Quoted.text value
  | sequence => "sequence"
  | map => "map"

/-- The fault in words. -/
def Fault.message : Fault → String
  | endOfText within => "EOF while parsing " ++ within.message
  | expectedValue => "expected value"
  | expectedIdent => "expected ident"
  | expectedColon => "expected " ++ backquoted ":"
  | expectedCommaOrBracket =>
    "expected " ++ backquoted "," ++ " or " ++ backquoted "]"
  | expectedCommaOrBrace =>
    "expected " ++ backquoted "," ++ " or " ++ backquoted "\x7d"
  | trailingComma => "trailing comma"
  | trailingCharacters => "trailing characters"
  | keyNotString => "key must be a string"
  | invalidNumber => "invalid number"
  | numberOutOfRange => "number out of range"
  | invalidEscape => "invalid escape"
  | endOfHexEscape => "unexpected end of hex escape"
  | loneSurrogate => "lone leading surrogate in hex escape"
  | controlCharacter =>
    "control character (\\u0000-\\u001F) found while parsing a string"
  | invalidType found expected =>
    "invalid type: " ++ found.message ++ ", expected " ++ expected
  | invalidValue found expected =>
    "invalid value: " ++ found.message ++ ", expected " ++ expected
  | invalidLength length record fields =>
    "invalid length " ++ toString length ++ ", expected struct " ++ record ++
      " with " ++ toString fields ++ " elements"
  | missingField name => "missing field " ++ backquoted name
  | duplicateField name => "duplicate field " ++ backquoted name
  | unknownVariant name variants =>
    "unknown variant " ++ backquoted name ++ ", expected one of " ++
      ", ".intercalate (variants.map backquoted)

end XorOrbit.Json
