import SchemaBaseline.Decimal.Binary64

/-!
# The shortest decimal that reads back

Every finite binary number lies in an interval of reals that round to it. `shortest` tries one
digit, two digits, and so on: the first decimal grid with a point in the interval wins, and of two
points on it the one nearer to the number. A grid has a point in the interval exactly when one of
the number's two neighbours on the grid lies in it.
-/

namespace SchemaBaseline.Decimal

/-- `digits * 10 ^ exponent`. -/
structure Scientific where
  digits : Nat
  exponent : Int
deriving Repr, DecidableEq

/-- A number together with the ends of its rounding interval, all three over one denominator. -/
structure Interval where
  low : Nat
  value : Nat
  high : Nat
  den : Nat
  closed : Bool

/-- The reals that round to a magnitude: half-way to either neighbour, ends included when the
significand is even. -/
def Magnitude.interval (size : Magnitude) : Interval :=
  let m := 4 * size.significand
  let q := size.exponent - 2
  let up := if 0 ≤ q then Nat.pow 2 q.toNat else 1
  let den := if 0 ≤ q then 1 else Nat.pow 2 (-q).toNat
  { low := (m - if size.atBinade then 1 else 2) * up
    value := m * up
    high := (m + 2) * up
    den
    closed := size.significand % 2 == 0 }

/-- `num` times a power of ten, for comparing grid points with the interval. -/
def timesTen (num : Nat) (power : Int) : Nat :=
  num * Nat.pow 10 power.toNat

/-- Whether `digits * 10 ^ exponent` lies in the interval. -/
def Interval.holds (i : Interval) (point : Scientific) : Bool :=
  let here := timesTen (point.digits * i.den) point.exponent
  let low := timesTen i.low (-point.exponent)
  let high := timesTen i.high (-point.exponent)
  if i.closed then low ≤ here && here ≤ high else low < here && here < high

/-- The number of decimal digits of a natural number; zero has none. -/
def digitCount (n : Nat) : Nat :=
  if n = 0 then 0 else (Nat.toDigits 10 n).length

/-- The exponent of the leading decimal digit of a positive ratio. -/
def leadingExponent (num den : Nat) : Int :=
  if den ≤ num then (digitCount (num / den) : Int) - 1 else -(digitCount ((den - 1) / num) : Int)

/-- The better of the number's two neighbours on the grid of step `10 ^ exponent`, if either lies
in the interval. -/
def Interval.onGrid (i : Interval) (exponent : Int) : Option Scientific :=
  let num := timesTen i.value (-exponent)
  let den := timesTen i.den exponent
  let below : Scientific := ⟨num / den, exponent⟩
  let above : Scientific := ⟨num / den + 1, exponent⟩
  match i.holds below, i.holds above with
  | true, true =>
    let twice := 2 * (num % den)
    some (if twice < den || (twice == den && below.digits % 2 == 0) then below else above)
  | true, false => some below
  | false, true => some above
  | false, false => none

/-- Searches the grids from coarse to fine. -/
def Interval.search (i : Interval) : Nat → Int → Scientific
  | 0, exponent => ⟨timesTen i.value (-exponent) / timesTen i.den exponent, exponent⟩
  | fuel + 1, exponent => (i.onGrid exponent).getD (i.search fuel (exponent - 1))

/-- The shortest decimal that rounds to a positive magnitude; seventeen digits always suffice. -/
def Magnitude.shortest (size : Magnitude) : Scientific :=
  let i := size.interval
  i.search 17 (leadingExponent i.value i.den)

end SchemaBaseline.Decimal
