import XorOrbit.Decimal.Notation
import XorOrbit.Json.Fault

/-!
# JSON numbers

Numbers without a fraction or an exponent are integers as long as they fit into
64 bits; all others, and minus zero, are doubles.  A double is computed from at
most 64 bits of its digits, which are then scaled by a power of ten.
-/

namespace XorOrbit.Json

/-- A number as it was written. -/
inductive Number
  | natural (value : Nat)
  /-- An integer below zero. -/
  | negative (magnitude : Nat)
  | floating (text : String)

/-- The number as it is shown in a message. -/
def Number.found : Number → Found
  | natural value => .integer value
  | negative magnitude => .integer (-(magnitude : Int))
  | floating text => .floating text

/-- The value of a decimal digit. -/
def digitValue (digit : Char) : Nat := digit.toNat - '0'.toNat

/-- The value of decimal digits. -/
def digitsValue (digits : List Char) : Nat :=
  digits.foldl (fun value digit => 10 * value + digitValue digit) 0

/-- Appends digits to a number while it stays within 64 bits; the digits that
follow are left over. -/
def absorb (value : Nat) : List Char → Nat × List Char
  | [] => (value, [])
  | digit :: digits =>
    let longer := 10 * value + digitValue digit
    if longer < UInt64.size then absorb longer digits
    else (value, digit :: digits)

/-- Divides by a power of ten. -/
def scaleDown (value : Float) (places : Nat) : Float :=
  if places ≤ 308 then value / Float.ofScientific 1 false places
  else if value == 0 then value
  else scaleDown (value / Float.ofScientific 1 false 308) (places - 308)
termination_by places

/-- The double `significand · 10 ^ exponent`, unless it is too large. -/
def scale? (significand : Nat) (exponent : Int) : Option Float :=
  let value := (UInt64.ofNat significand).toFloat
  match exponent with
  | .negSucc places => some (scaleDown value (places + 1))
  | .ofNat places =>
    if places ≤ 308 then
      let scaled := value * Float.ofScientific 1 false places
      if scaled.isInf then none else some scaled
    else if value == 0 then some value
    else none

/-- A number with a fraction or an exponent. -/
def floatOf (negative : Bool) (significand : Nat) (exponent : Int) :
    Except Fault Number :=
  match scale? significand exponent with
  | none => .error .numberOutOfRange
  | some value => .ok (.floating (Decimal.text negative value))

/-- Reads the digits of an exponent, whose sign has been read. -/
def scanExponentDigits (negative : Bool) (significand : Nat) (places : Int)
    (below : Bool) (text : List Char) : Except Fault (Number × List Char) := do
  let (digits, rest) := text.span Char.isDigit
  if digits.isEmpty then
    throw (if rest.isEmpty then .endOfText .value else .invalidNumber)
  let amount := digitsValue digits
  if amount < Nat.pow 2 31 then
    let exponent := if below then places - amount else places + amount
    return (← floatOf negative significand exponent, rest)
  else if significand = 0 ∨ below then
    return (← floatOf negative 0 0, rest)
  else throw .numberOutOfRange

/-- Reads what follows the letter of an exponent. -/
def scanExponent (negative : Bool) (significand : Nat) (places : Int)
    (text : List Char) : Except Fault (Number × List Char) :=
  match text with
  | '+' :: rest => scanExponentDigits negative significand places false rest
  | '-' :: rest => scanExponentDigits negative significand places true rest
  | _ => scanExponentDigits negative significand places false text

/-- Whether the character starts an exponent. -/
def isExponentMark (c : Char) : Bool := c == 'e' || c == 'E'

/-- Reads what may follow the fraction. -/
def scanAfterFraction (negative : Bool) (significand : Nat) (places : Int)
    (text : List Char) : Except Fault (Number × List Char) :=
  match text with
  | c :: rest =>
    if isExponentMark c then scanExponent negative significand places rest
    else return (← floatOf negative significand places, text)
  | [] => return (← floatOf negative significand places, text)

/-- Reads what follows the point. -/
def scanFraction (negative : Bool) (significand : Nat) (places : Int)
    (text : List Char) : Except Fault (Number × List Char) :=
  let (digits, rest) := text.span Char.isDigit
  if digits.isEmpty then
    .error (if rest.isEmpty then .endOfText .value else .invalidNumber)
  else
    let (significand, unused) := absorb significand digits
    let used := digits.length - unused.length
    scanAfterFraction negative significand (places - used) rest

/-- A number without fraction and exponent; `places` digits did not fit into
the significand. -/
def wholeNumber (negative : Bool) (significand places : Nat) :
    Except Fault Number :=
  if places ≠ 0 then floatOf negative significand places
  else if !negative then .ok (.natural significand)
  else if significand = 0 ∨ Nat.pow 2 63 < significand then
    floatOf true significand 0
  else .ok (.negative significand)

/-- Reads what may follow the digits before the point. -/
def scanAfterWhole (negative : Bool) (significand places : Nat)
    (text : List Char) : Except Fault (Number × List Char) :=
  match text with
  | [] => return (← wholeNumber negative significand places, text)
  | c :: rest =>
    if c = '.' then scanFraction negative significand places rest
    else if isExponentMark c then
      scanExponent negative significand places rest
    else return (← wholeNumber negative significand places, text)

/-- Reads a number whose sign has been read. -/
def scanMagnitude (negative : Bool) (text : List Char) :
    Except Fault (Number × List Char) :=
  let (digits, rest) := text.span Char.isDigit
  match digits with
  | [] => .error (if rest.isEmpty then .endOfText .value else .invalidNumber)
  | '0' :: _ :: _ => .error .invalidNumber
  | digits =>
    let (significand, unused) := absorb 0 digits
    scanAfterWhole negative significand unused.length rest

/-- Reads the number at the start of a text. -/
def scanNumber (text : List Char) : Except Fault (Number × List Char) :=
  match text with
  | '-' :: rest => scanMagnitude true rest
  | _ => scanMagnitude false text

end XorOrbit.Json
