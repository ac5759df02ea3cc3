/-!
# Shortest decimals

The decimal with the fewest digits that reads back as a given binary number,
and of those the nearest.  A positive double is `m · 2 ^ q`; the reals that
round to it form an interval around it, whose ends belong to it exactly if `m`
is even.  For each number of digits only the two neighbours of the value on
that decimal grid have to be tried, in exact arithmetic.
-/

namespace XorOrbit.Decimal

/-- A positive number `numerator / denominator` with the interval of the reals
that round to it, all over one denominator. -/
structure Rounding where
  low : Nat
  value : Nat
  high : Nat
  denominator : Nat
  /-- Whether the ends of the interval round to the value. -/
  closed : Bool

/-- The decimal `digits · 10 ^ exponent`. -/
structure Shortest where
  digits : Nat
  exponent : Int

/-- The interval around `m · 2 ^ q`.  Below a power of two the next double is
only half as far away, except at the bottom of the range. -/
def Rounding.ofParts (m : Nat) (q : Int) : Rounding :=
  let atPower := m = Nat.pow 2 52 ∧ -1074 < q
  let quarter := q - 2
  let scale := Nat.pow 2 quarter.toNat
  { low := (if atPower then 4 * m - 1 else 4 * m - 2) * scale
    value := 4 * m * scale
    high := (4 * m + 2) * scale
    denominator := Nat.pow 2 (-quarter).toNat
    closed := m % 2 == 0 }

/-- The decimal order of magnitude: the largest `e` with `10 ^ e` not above the
value. -/
def Rounding.magnitude (r : Rounding) : Int :=
  if r.denominator ≤ r.value then
    ((Nat.toDigits 10 (r.value / r.denominator)).length : Int) - 1
  else
    -(((List.range 400).find? fun e =>
      r.denominator ≤ r.value * Nat.pow 10 e).getD 0 : Nat)

/-- Compares `n · 10 ^ exponent` with `bound / denominator`. -/
def Rounding.compareGrid (r : Rounding) (n : Nat) (exponent : Int)
    (bound : Nat) : Ordering :=
  compare (n * Nat.pow 10 exponent.toNat * r.denominator)
    (bound * Nat.pow 10 (-exponent).toNat)

/-- Whether `n · 10 ^ exponent` rounds to the value. -/
def Rounding.contains (r : Rounding) (n : Nat) (exponent : Int) : Bool :=
  let low := r.compareGrid n exponent r.low
  let high := r.compareGrid n exponent r.high
  (low == .gt || r.closed && low == .eq) &&
    (high == .lt || r.closed && high == .eq)

/-- The neighbour of the value on the grid of multiples of `10 ^ exponent` that
rounds to it; the nearer one if both do, and the even one if they are equally
near. -/
def Rounding.onGrid (r : Rounding) (exponent : Int) : Option Nat :=
  let below :=
    r.value * Nat.pow 10 (-exponent).toNat /
      (r.denominator * Nat.pow 10 exponent.toNat)
  match r.contains below exponent, r.contains (below + 1) exponent with
  | true, false => some below
  | false, true => some (below + 1)
  | false, false => none
  | true, true =>
    match r.compareGrid (2 * below + 1) exponent (2 * r.value) with
    | .gt => some below
    | .lt => some (below + 1)
    | .eq => some (if below % 2 == 0 then below else below + 1)

/-- The shortest decimal that rounds to `m · 2 ^ q`; 17 digits always
suffice. -/
def shortest (m : Nat) (q : Int) : Shortest :=
  let r := Rounding.ofParts m q
  let top := r.magnitude
  let found := (List.range 17).findSome? fun (more : Nat) =>
    (r.onGrid (top - more)).map fun digits => (⟨digits, top - more⟩ : Shortest)
  found.getD ⟨0, 0⟩

/-- The shortest decimal of a positive double. -/
def shortestOfFloat (value : Float) : Shortest :=
  let bits := value.toBits.toNat % Nat.pow 2 63
  let fraction := bits % Nat.pow 2 52
  match bits / Nat.pow 2 52 with
  | 0 => shortest fraction (-1074)
  | exponent => shortest (fraction + Nat.pow 2 52) ((exponent : Int) - 1075)

end XorOrbit.Decimal
