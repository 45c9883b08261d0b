import SchemaBaseline.Decimal.Shortest

/-!
# Writing and reading decimal texts

`Layout` holds the decisions of a notation: when a number is written positionally and how its
exponent and the values that are not numbers look. `Layout.display` writes the shortest digits in
it.
-/

namespace SchemaBaseline.Decimal

/-- The decisions of a decimal notation. -/
structure Layout where
  /-- The least exponent of the leading digit that is still written positionally. -/
  leastPositional : Int
  /-- The first exponent of the leading digit that is no longer written positionally. -/
  firstScientific : Int
  /-- The least number of digits of an exponent. -/
  exponentDigits : Nat
  notANumber : String
  infinity : String

/-- Numbers are written positionally from `10 ^ -4` up to below `10 ^ 16`, always with a point;
other exponents have a sign and at least two digits. -/
def plainLayout : Layout := ⟨-4, 16, 2, "nan", "inf"⟩

/-- Digits of a natural number, with zeros in front up to a width. -/
def padded (width n : Nat) : String :=
  let digits := Nat.toDigits 10 n
  String.ofList (List.replicate (width - digits.length) '0' ++ digits)

/-- Writes digits with the point after `place` of them, filling up with zeros on either side. -/
def positional (digits : List Char) (place : Int) : List Char :=
  if place ≤ 0 then '0' :: '.' :: (List.replicate (-place).toNat '0' ++ digits)
  else
    let k := place.toNat
    if digits.length ≤ k then digits ++ List.replicate (k - digits.length) '0' ++ ['.', '0']
    else digits.take k ++ '.' :: digits.drop k

/-- Writes digits as one digit, a point if more follow, and an exponent. -/
def Layout.scientific (layout : Layout) (digits : List Char) (exponent : Int) : List Char :=
  let body := match digits with
    | first :: second :: rest => first :: '.' :: second :: rest
    | short => short
  let sign := if exponent < 0 then '-' else '+'
  body ++ 'e' :: sign :: (padded layout.exponentDigits exponent.natAbs).toList

/-- The text of a number in a notation. -/
def Layout.display (layout : Layout) (x : Float) : String :=
  if x.isNaN then layout.notANumber
  else
    let sign := if signBit x then ['-'] else []
    if x.isInf then String.ofList sign ++ layout.infinity
    else
      let size := magnitude x
      if size.significand = 0 then String.ofList (sign ++ ['0', '.', '0'])
      else
        let found := size.shortest
        let all := Nat.toDigits 10 found.digits
        let digits := (all.reverse.dropWhile (· == '0')).reverse
        let leading : Int := found.exponent + all.length - 1
        String.ofList (sign ++
          (if layout.leastPositional ≤ leading && leading < layout.firstScientific then
            positional digits (leading + 1)
          else layout.scientific digits leading))

/-- The text of a number in the plain notation. -/
def display (x : Float) : String :=
  plainLayout.display x

/-- The value of a list of decimal digits. -/
def natOfDigits (digits : List Char) : Nat :=
  digits.foldl (fun n c => 10 * n + (c.toNat - '0'.toNat)) 0

/-- An unsigned decimal literal: whole digits, fraction digits and an exponent. -/
def ofLiteral (negative : Bool) (whole fraction : List Char) (exponent : Int) : Float :=
  ofDecimal negative (natOfDigits (whole ++ fraction)) (exponent - fraction.length)

end SchemaBaseline.Decimal
