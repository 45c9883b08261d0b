import SchemaBaseline.Decimal.Layout

/-!
# Reading decimal numbers

`readInteger` reads a sign or none and digits, which single underscores may part. `readNumber`
reads a sign or none, digits with at most one point among or around them, an exponent or none, or
a word for infinity or for what is no number.
-/

namespace SchemaBaseline.Decimal

/-- A sign in front, and whether it is a minus. -/
def takeSign : List Char → Bool × List Char
  | '-' :: rest => (true, rest)
  | '+' :: rest => (false, rest)
  | cs => (false, cs)

/-- Whether there is at least one character and all of them are digits. -/
def areDigits (cs : List Char) : Bool :=
  !cs.isEmpty && cs.all Char.isDigit

/-- Whether underscores stand only one at a time and not at the ends. -/
def wellSpaced (cs : List Char) : Bool :=
  cs.head? != some '_' && cs.getLast? != some '_' &&
    (cs.zip cs.tail).all fun pair => !(pair.1 == '_' && pair.2 == '_')

/-- A text without underscores, if they are well placed. -/
def dropUnderscores (cs : List Char) : Option (List Char) :=
  if wellSpaced cs then some (cs.filter (· != '_')) else none

/-- Integers of more digits are refused. -/
def maxDigits : Nat := 4300

/-- The integer that a text spells: a sign or none, and digits with single underscores between
them. -/
def readInteger (cs : List Char) : Option Int :=
  let (negative, body) := takeSign cs
  match dropUnderscores body with
  | some digits =>
    if areDigits digits && digits.length ≤ maxDigits then
      let size : Int := natOfDigits digits
      some (if negative then -size else size)
    else none
  | none => none

/-- An exponent: a sign and digits. -/
def readExponent (cs : List Char) : Option Int :=
  let (negative, digits) := takeSign cs
  if areDigits digits then
    let size : Int := natOfDigits digits
    some (if negative then -size else size)
  else none

/-- The number that a text without sign spells: digits with at most one point among or around
them, and an exponent. -/
def readUnsigned (negative : Bool) (cs : List Char) : Option Float :=
  let whole := cs.takeWhile Char.isDigit
  let rest := cs.dropWhile Char.isDigit
  let (fraction, rest) := match rest with
    | '.' :: tail => (tail.takeWhile Char.isDigit, tail.dropWhile Char.isDigit)
    | _ => ([], rest)
  if whole.isEmpty && fraction.isEmpty then none
  else
    match rest with
    | [] => some (ofLiteral negative whole fraction 0)
    | c :: tail =>
      if c = 'e' || c = 'E' then
        (readExponent tail).map fun exponent => ofLiteral negative whole fraction exponent
      else none

/-- The number that a text spells, infinity and the value that is no number included. -/
def readNumber (cs : List Char) : Option Float :=
  let (negative, body) := takeSign cs
  match String.ofList (body.map Char.toLower) with
  | "inf" | "infinity" => some (if negative then -(1.0 / 0.0) else 1.0 / 0.0)
  | "nan" => some (0.0 / 0.0)
  | _ => readUnsigned negative body

end SchemaBaseline.Decimal
