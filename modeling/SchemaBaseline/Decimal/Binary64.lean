/-!
# Binary floating-point numbers as exact ratios

A finite number of the 64-bit binary format is `m * 2 ^ q` with a natural `m`. `parts` reads `m`
and `q` off the bits, and `ofRatio` goes back: it finds the number nearest to a ratio, a tie going
to the even significand.
-/

namespace SchemaBaseline.Decimal

/-- The exponent of the least bit of a subnormal number. -/
def leastExponent : Int := -1074

/-- The magnitude `significand * 2 ^ exponent` of a finite number. `atBinade` says that the number
is the least of its binade, so that its lower neighbour is only half as far away as its upper
one. -/
structure Magnitude where
  significand : Nat
  exponent : Int
  atBinade : Bool
deriving Repr, DecidableEq

/-- Whether the sign bit is set, as it is for negative zero. -/
def signBit (x : Float) : Bool :=
  Nat.pow 2 63 ≤ x.toBits.toNat

/-- The magnitude that the bits of a finite number stand for. -/
def magnitude (x : Float) : Magnitude :=
  let bits := x.toBits.toNat % Nat.pow 2 63
  let field := bits / Nat.pow 2 52
  let fraction := bits % Nat.pow 2 52
  if field = 0 then ⟨fraction, leastExponent, false⟩
  else ⟨Nat.pow 2 52 + fraction, leastExponent + (field - 1 : Nat), fraction == 0 && 1 < field⟩

/-- The quotient rounded to the nearest natural number, a tie going to the even one. -/
def roundQuotient (num den : Nat) : Nat :=
  let q := num / den
  let twice := 2 * (num % den)
  if den < twice || (twice == den && q % 2 == 1) then q + 1 else q

/-- The number of binary digits. -/
def bitLength (n : Nat) : Nat :=
  if n = 0 then 0 else Nat.log2 n + 1

/-- `num / den * 2 ^ shift`, as a pair of naturals. -/
def scaleBinary (num den : Nat) (shift : Int) : Nat × Nat :=
  if 0 ≤ shift then (num * Nat.pow 2 shift.toNat, den) else (num, den * Nat.pow 2 (-shift).toNat)

/-- The bits of the number nearest to `num / den`; beyond the largest finite number it is
infinity. -/
def bitsOfRatio (num den : Nat) : Nat :=
  if num = 0 then 0 else
    let guess : Int := (bitLength num : Int) - bitLength den - 53
    let trial := scaleBinary num den (-guess)
    let exponent := max leastExponent (if trial.1 / trial.2 < Nat.pow 2 53 then
      (if trial.1 / trial.2 < Nat.pow 2 52 then guess - 1 else guess) else guess + 1)
    let scaled := scaleBinary num den (-exponent)
    let m := roundQuotient scaled.1 scaled.2
    let m' := if m = Nat.pow 2 53 then Nat.pow 2 52 else m
    let exponent' := if m = Nat.pow 2 53 then exponent + 1 else exponent
    if m' < Nat.pow 2 52 then m'
    else
      let field := (exponent' - leastExponent).toNat + 1
      if 2047 ≤ field then 2047 * Nat.pow 2 52 else field * Nat.pow 2 52 + (m' - Nat.pow 2 52)

/-- The number nearest to `num / den`, with the given sign. -/
def ofRatio (negative : Bool) (num den : Nat) : Float :=
  let bits := bitsOfRatio num den
  Float.ofBits (UInt64.ofNat (if negative then Nat.pow 2 63 + bits else bits))

/-- The number nearest to `coefficient * 10 ^ exponent`. Coefficients so far out of range that the
answer is infinity or zero are settled by their number of digits, without computing the power. -/
def ofDecimal (negative : Bool) (coefficient : Nat) (exponent : Int) : Float :=
  let size : Int := (Nat.toDigits 10 coefficient).length + exponent
  if coefficient = 0 || size < -330 then ofRatio negative 0 1
  else if 320 < size then ofRatio negative (Nat.pow 2 1100) 1
  else if 0 ≤ exponent then ofRatio negative (coefficient * Nat.pow 10 exponent.toNat) 1
  else ofRatio negative coefficient (Nat.pow 10 (-exponent).toNat)

/-- The number nearest to an integer. -/
def ofInt (n : Int) : Float :=
  ofRatio (n < 0) n.natAbs 1

/-- The floor of a finite number, exactly. -/
def floor (x : Float) : Int :=
  let size := magnitude x
  let signed : Int := if signBit x then -size.significand else size.significand
  if 0 ≤ size.exponent then signed * Int.pow 2 size.exponent.toNat
  else Int.fdiv signed (Int.pow 2 (-size.exponent).toNat)

/-- Whether a finite number is an integer. -/
def isIntegral (x : Float) : Bool :=
  let size := magnitude x
  0 ≤ size.exponent || size.significand % Nat.pow 2 (-size.exponent).toNat == 0

end SchemaBaseline.Decimal
