import SchemaBaseline.Decimal.Reader
import SchemaBaseline.Json.Problem
import SchemaBaseline.Text.Blank
import SchemaBaseline.Text.Digits
import SchemaBaseline.Text.Quoted
import SchemaBaseline.Text.Split
import SchemaBaseline.Value.Basic
import SchemaBaseline.Yaml.Fault
import SchemaBaseline.Yaml.Tag

/-!
# What scalars mean

The values of scalars by their tags. A plain scalar always fits its tag, but it may still be no
value: a date that does not exist, or no digit behind the sign of a base. A scalar whose tag is
written may have any text at all.
-/

namespace SchemaBaseline.Yaml

open Text (quoted)

/-! ## Integers -/

/-- The value of a digit in bases up to sixteen. -/
def digitValue? (base : Nat) (c : Char) : Option Nat :=
  let value :=
    if c.isDigit then some (c.toNat - '0'.toNat)
    else if 'a' ≤ c && c ≤ 'f' then some (c.toNat - 'a'.toNat + 10)
    else if 'A' ≤ c && c ≤ 'F' then some (c.toNat - 'A'.toNat + 10)
    else none
  value.filter (· < base)

/-- The letter that may announce a base. -/
def baseLetter? : Nat → Option Char
  | 2 => some 'b'
  | 8 => some 'o'
  | 16 => some 'x'
  | _ => none

/-- A text without a zero and the letter of the base in front. -/
def dropBaseSign (base : Nat) (cs : List Char) : List Char :=
  match cs with
  | '0' :: letter :: rest => if some letter.toLower = baseLetter? base then rest else cs
  | _ => cs

/-- Digits as a number, if all of them are digits of the base and there is one. -/
def digitsValue? (base : Nat) (cs : List Char) : Option Nat :=
  if cs.isEmpty then none
  else (cs.mapM (digitValue? base)).map fun values => values.foldl (fun n d => base * n + d) 0

/-- The integer that a text spells in a base, with a sign or none and blanks around it. -/
def integerIn (base : Nat) (cs : List Char) : Except Stop Int :=
  let (negative, body) := Decimal.takeSign ((Text.stripChars cs).map Text.plainDigit)
  match digitsValue? base (dropBaseSign base body) with
  | some size =>
    if base = 10 && Decimal.maxDigits < body.length then
      .error (.unfit (.outOfRange (Json.tooManyDigitsMessage body.length)))
    else .ok (if negative then -(size : Int) else size)
  | none =>
    .error (.unfit (.outOfRange (s!"invalid literal for int() with base {base}: " ++
      String.ofList ((quoted (String.ofList cs)).toList.take 200))))

/-- The pieces of a text between its colons. -/
def splitColons (cs : List Char) : List (List Char) :=
  Text.splitAt ':' cs

/-- The value of an integer: in base two behind `0b`, sixteen behind `0x`, eight behind another
zero, sixty between colons, else ten. -/
def integerValue (cs : List Char) : Except Stop Int :=
  let digits := cs.filter (· != '_')
  if digits.isEmpty then .error (.unfit .noDigit)
  else
    let (negative, body) := Decimal.takeSign digits
    let size : Except Stop Int :=
      match body with
      | [] => .error (.unfit .noDigit)
      | ['0'] => .ok 0
      | '0' :: 'b' :: rest => integerIn 2 rest
      | '0' :: 'x' :: rest => integerIn 16 rest
      | '0' :: _ => integerIn 8 body
      | _ =>
        if body.contains ':' then
          ((splitColons body).mapM (integerIn 10)).map fun parts =>
            parts.foldl (fun n part => 60 * n + part) 0
        else integerIn 10 body
    size.map fun n => if negative then -n else n

/-! ## Numbers -/

/-- The number that a text spells, with blanks around it. -/
def numberIn (cs : List Char) : Except Stop Float :=
  match Decimal.readNumber ((Text.stripChars cs).map Text.plainDigit) with
  | some x => .ok x
  | none =>
    .error (.unfit (.outOfRange ("could not convert string to float: " ++
      quoted (String.ofList cs))))

/-- Parts in base sixty, the last one first; `base` is what the next one counts for. -/
def sumSixtieths : List Float → Nat → Float → Except Stop Float
  | [], _, sum => .ok sum
  | part :: rest, base, sum =>
    let factor := Decimal.ofInt base
    if factor.isInf then .error (.unfit .hugePlace)
    else sumSixtieths rest (60 * base) (sum + part * factor)

/-- The value of a number: in base sixty between colons, else in base ten. -/
def numberValue (cs : List Char) : Except Stop Float :=
  let digits := (cs.filter (· != '_')).map Char.toLower
  if digits.isEmpty then .error (.unfit .noDigit)
  else
    let (negative, body) := Decimal.takeSign digits
    let size : Except Stop Float :=
      if body = ".inf".toList then .ok (1.0 / 0.0)
      else if body = ".nan".toList then .ok (0.0 / 0.0)
      else if body.contains ':' then do
        let parts ← (splitColons body).mapM numberIn
        sumSixtieths parts.reverse 1 0.0
      else numberIn body
    size.map fun x => if negative then -x else x

/-! ## Truth values -/

/-- The value of a word for yes or no. -/
def truthValue (cs : List Char) : Except Stop Bool :=
  match String.ofList (cs.map Char.toLower) with
  | "yes" | "true" | "on" => .ok true
  | "no" | "false" | "off" => .ok false
  | other => .error (.unfit (.noTruth other))

/-! ## Date-times -/

/-- The parts of a date and a time of day, as written. -/
structure CivilText where
  year : Nat
  month : Nat
  day : Nat
  hour : Nat
  minute : Nat
  second : Nat
  micro : Nat
  /-- Minutes; nothing is written for no offset. -/
  offset : Option Int

/-- Digits in front as a number. -/
def frontNumber (cs : List Char) : Nat :=
  Decimal.natOfDigits (cs.takeWhile Char.isDigit)

/-- What follows the digits in front and one character behind them. -/
def behindNumber (cs : List Char) : List Char :=
  (cs.dropWhile Char.isDigit).drop 1

/-- The microseconds of a fraction; digits after the sixth are cut off. -/
def fractionMicros (cs : List Char) : Nat :=
  Decimal.natOfDigits ((cs.takeWhile Char.isDigit ++ List.replicate 6 '0').take 6)

/-- The offset in minutes at the end of a date-time. -/
def offsetOf (cs : List Char) : Option Int :=
  match cs.dropWhile fun c => c == ' ' || c == '\t' with
  | 'Z' :: _ => some 0
  | sign :: rest =>
    if sign = '+' || sign = '-' then
      let size : Int := 60 * frontNumber rest + frontNumber (behindNumber rest)
      some (if sign = '-' then -size else size)
    else none
  | [] => none

/-- The parts of a date-time whose form is `Plain.looseStamp`. -/
def CivilText.of (cs : List Char) : CivilText :=
  let behindYear := behindNumber cs
  let behindMonth := behindNumber behindYear
  let atGap := behindMonth.dropWhile Char.isDigit
  let atHour := atGap.dropWhile (!Char.isDigit ·)
  let atMinute := behindNumber atHour
  let atSecond := behindNumber atMinute
  let atFraction := atSecond.dropWhile Char.isDigit
  let hasFraction := atFraction.head? = some '.'
  { year := frontNumber cs, month := frontNumber behindYear, day := frontNumber behindMonth,
    hour := frontNumber atHour, minute := frontNumber atMinute, second := frontNumber atSecond,
    micro := if hasFraction then fractionMicros (atFraction.drop 1) else 0,
    offset := offsetOf
      (if hasFraction then (atFraction.drop 1).dropWhile Char.isDigit else atFraction) }

/-- A duration in minutes, as messages write it: days and seconds, the seconds never negative. -/
def durationText (minutes : Int) : String :=
  let days := Int.fdiv minutes 1440
  let seconds := 60 * Int.fmod minutes 1440
  "datetime.timedelta(" ++ ", ".intercalate
    ((if days = 0 then [] else [s!"days={days}"]) ++
      (if seconds = 0 then [] else [s!"seconds={seconds}"])) ++ ")"

/-- Why there is no date-time of the given parts; the offset is looked at first, then the parts
from the largest to the smallest. -/
def CivilText.problem (t : CivilText) : String :=
  if !Time.validOffset t.offset then
    "offset must be a timedelta strictly between -timedelta(hours=24) and " ++
      "timedelta(hours=24), not " ++ durationText (t.offset.getD 0) ++ "."
  else if t.year = 0 then "year 0 is out of range"
  else if t.month = 0 || 12 < t.month then "month must be in 1..12"
  else if t.day = 0 || Time.monthLength t.year t.month < t.day then
    "day is out of range for month"
  else if 24 ≤ t.hour then "hour must be in 0..23"
  else if 60 ≤ t.minute then "minute must be in 0..59"
  else "second must be in 0..59"

/-- The value of a date or a date-time. A date alone is its midnight. -/
def stampValue (cs : List Char) : Except Stop Time.Stamp :=
  if !Plain.looseStamp.accepts (withoutLastFeed cs) then .error (.unfit .noStamp)
  else
    let t := CivilText.of cs
    match Time.Stamp.of? t.year t.month t.day t.hour t.minute t.second t.micro t.offset with
    | some stamp => .ok stamp
    | none => .error (.unfit (.outOfRange t.problem))

/-! ## Binary data -/

/-- The value of a character of binary data. -/
def base64Value? (c : Char) : Option Nat :=
  if 'A' ≤ c && c ≤ 'Z' then some (c.toNat - 'A'.toNat)
  else if 'a' ≤ c && c ≤ 'z' then some (c.toNat - 'a'.toNat + 26)
  else if c.isDigit then some (c.toNat - '0'.toNat + 52)
  else if c = '+' then some 62
  else if c = '/' then some 63
  else none

/-- The six-bit values of binary data up to the padding that completes a group of four; other
characters are skipped. `filled` counts the values of the unfinished group and `pads` the padding
behind it. -/
def sextets : List Char → Nat → Nat → List Nat × Bool
  | [], filled, _ => ([], filled = 0)
  | c :: rest, filled, pads =>
    if c = '=' then
      if 2 ≤ filled && 4 ≤ filled + pads + 1 then ([], true)
      else sextets rest filled (if 2 ≤ filled then pads + 1 else pads)
    else match base64Value? c with
      | none => sextets rest filled pads
      | some v =>
        let (more, complete) := sextets rest ((filled + 1) % 4) 0
        (v :: more, complete)

/-- The bytes of six-bit values; bits that fill no byte are dropped. -/
def bytesOfSextets : List Nat → List UInt8
  | a :: b :: c :: d :: rest =>
    UInt8.ofNat (4 * a + b / 16) :: UInt8.ofNat (16 * (b % 16) + c / 4) ::
      UInt8.ofNat (64 * (c % 4) + d) :: bytesOfSextets rest
  | [a, b, c] => [UInt8.ofNat (4 * a + b / 16), UInt8.ofNat (16 * (b % 16) + c / 4)]
  | [a, b] => [UInt8.ofNat (4 * a + b / 16)]
  | _ => []

/-- The characters outside ASCII that come first: where they begin, and how many there are. -/
def firstForeign? (codes : List Nat) : Option (Nat × List Nat) :=
  let before := codes.takeWhile (· < 128)
  let foreign := (codes.drop before.length).takeWhile (128 ≤ ·)
  if foreign.isEmpty then none else some (before.length, foreign)

/-- The message about characters outside ASCII. -/
def foreignMessage (position : Nat) (foreign : List Nat) : String :=
  match foreign with
  | [code] =>
    s!"'ascii' codec can't encode character '" ++ String.ofList (Text.escapeCode code) ++
      s!"' in position {position}: ordinal not in range(128)"
  | _ =>
    s!"'ascii' codec can't encode characters in position {position}-" ++
      s!"{position + foreign.length - 1}: " ++
      "ordinal not in range(128)"

/-- The value of binary data in base sixty-four. -/
def binaryValue (codes : List Nat) (mark : Mark) : Except Stop (List UInt8) :=
  match firstForeign? codes with
  | some (position, foreign) => stopAt (.notAscii (foreignMessage position foreign)) mark
  | none =>
    let (values, complete) := sextets (codes.map Char.ofNat) 0 0
    if complete then .ok (bytesOfSextets values)
    else if values.length % 4 = 1 then
      stopAt (.notBase64 (
        s!"Invalid base64-encoded string: number of data characters ({values.length}) " ++
        "cannot be 1 more than a multiple of 4")) mark
    else stopAt (.notBase64 "Incorrect padding") mark

end SchemaBaseline.Yaml
