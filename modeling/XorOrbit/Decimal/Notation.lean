import XorOrbit.Decimal.Shortest

/-!
# Decimal notation of doubles

How doubles are shown in messages: with the fewest digits that read back,
positionally if the first digit stands between the fifth place after the point
and the sixteenth before it, and with a signed exponent otherwise.
-/

namespace XorOrbit.Decimal

/-- Decimal digits with the order of magnitude of the first one. -/
structure Notation where
  digits : List Char
  magnitude : Int

/-- Drops the zeros at the end of the digits. -/
def Notation.ofShortest (decimal : Shortest) : Notation :=
  let digits := Nat.toDigits 10 decimal.digits
  { digits := (digits.reverse.dropWhile (· == '0')).reverse
    magnitude := decimal.exponent + digits.length - 1 }

/-- The digits around a point, always with one digit on either side of it. -/
def Notation.positional (n : Notation) : List Char :=
  if n.magnitude < 0 then
    ['0', '.'] ++ List.replicate (-n.magnitude - 1).toNat '0' ++ n.digits
  else
    let whole := n.magnitude.toNat + 1
    let padded := n.digits ++ List.replicate (whole - n.digits.length) '0'
    let fraction := padded.drop whole
    padded.take whole ++ '.' :: (if fraction.isEmpty then ['0'] else fraction)

/-- The digits with a point after the first, and an exponent. -/
def Notation.scientific (n : Notation) : List Char :=
  let exponent := Nat.toDigits 10 n.magnitude.natAbs
  let sign := if n.magnitude < 0 then '-' else '+'
  let fraction := n.digits.drop 1
  n.digits.take 1 ++ (if fraction.isEmpty then [] else '.' :: fraction) ++
    'e' :: sign :: exponent

/-- The text of a positive double. -/
def Notation.text (n : Notation) : List Char :=
  if -5 ≤ n.magnitude ∧ n.magnitude ≤ 15 then n.positional else n.scientific

/-- The text of a finite double with the given sign and magnitude. -/
def text (negative : Bool) (value : Float) : String :=
  let digits :=
    if value == 0 then ['0', '.', '0']
    else (Notation.ofShortest (shortestOfFloat value)).text
  String.ofList (if negative then '-' :: digits else digits)

end XorOrbit.Decimal
