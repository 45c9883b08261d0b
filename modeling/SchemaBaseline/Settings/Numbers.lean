import SchemaBaseline.Decimal.Reader
import SchemaBaseline.Text.Blank
import SchemaBaseline.Value.Issue

/-!
# Numbers in settings

Settings come from the environment as texts, or from a caller as values of any kind. `loadInt` and
`loadFloat` take either. In texts, blanks around a number do not matter, a single underscore may
stand between digits, and an integer may be followed by a point and zeros.
-/

namespace SchemaBaseline.Settings

open Decimal (takeSign areDigits dropUnderscores maxDigits)

/-- White space; the information separators do not count. -/
def isSpace (c : Char) : Bool :=
  Text.isBlank c && !(0x1c ≤ c.toNat && c.toNat ≤ 0x1f)

/-- A text without white space at its ends. -/
def trim (cs : List Char) : List Char :=
  Text.dropEndWhile isSpace (cs.dropWhile isSpace)

/-- The digits of an integer without a point and the zeros behind it. -/
def dropZeroFraction (cs : List Char) : List Char :=
  match cs.dropWhile (· != '.') with
  | '.' :: zeros => if zeros.all (· == '0') then cs.takeWhile (· != '.') else cs
  | _ => cs

/-- The integer that a text spells. -/
def readInt (s : String) : Checked Int :=
  let (negative, body) := takeSign (trim s.toList)
  match dropUnderscores (dropZeroFraction body) with
  | some digits =>
    if !areDigits digits then .fail .unreadableInt
    else if maxDigits < digits.length then .fail .oversizedInt
    else
      let size : Int := Decimal.natOfDigits digits
      .ok (if negative then -size else size)
  | none => .fail .unreadableInt

/-- The integer that a value stands for. -/
def loadInt : Value → Checked Int
  | .int n => .ok n
  | .bool b => .ok (if b then 1 else 0)
  | .float x =>
    if x.isNaN || x.isInf then .fail .notFinite
    else if !Decimal.isIntegral x then .fail .fractionalInt
    else
      let n := Decimal.floor x
      if -Int.pow 2 63 < n && n < Int.pow 2 63 then .ok n else .fail .oversizedInt
  | .text s => readInt s
  | _ => .fail .notAnInt

/-- The number that a text spells, with white space around it. -/
def readNumber (cs : List Char) : Option Float :=
  Decimal.readNumber (trim cs)

def loadFloat : Value → Checked Float
  | .float x => .ok x
  | .int n =>
    let x := Decimal.ofInt n
    if x.isInf then .fail .notANumber else .ok x
  | .bool b => .ok (if b then 1.0 else 0.0)
  | .text s =>
    match (readNumber s.toList).or ((dropUnderscores s.toList).bind readNumber) with
    | some x => .ok x
    | none => .fail .unreadableNumber
  | _ => .fail .notANumber

end SchemaBaseline.Settings
